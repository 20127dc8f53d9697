/-
Where an SFTP batch is placed.

A normalised path is its components rendered (`render`). Joining a
component on normalises the path so far and the joined path again, and
each time trims it. The white space of a path follows what is lost: it
never grows along the joins and shrinks with every trim
(`joinRemote_lt`), so the components arrive as they are exactly when no
trim does anything (`joinParts_iff`).

Acceptance is brought to conditions on the items as a whole
(`planItems_ok_iff`), which no order can change.
-/
import RemoteDesk.Sftp.BatchPolicy

namespace RemoteDesk.Sftp

open Lib

-- ============================== components

/-- A component a normaliser lets through. -/
structure Comp (c : List Nat) : Prop where
  ne_nil : c ≠ []
  ne_dot : c ≠ codes "."
  ne_dots : c ≠ codes ".."
  slash : 47 ∉ c
  backslash : 92 ∉ c
  nul : 0 ∉ c

/-- A normalised path. -/
def render (absolute : Bool) (cs : List (List Nat)) : List Nat :=
  if cs = [] then if absolute then codes "/" else codes "."
  else (if absolute then codes "/" else []) ++ [47].intercalate cs

variable {text c path : List Nat} {parts segments : List (List Nat)}

theorem notMem_of_mem_splitOn {part : List Nat} {sep : Nat}
    (h : part ∈ text.splitOn sep) : sep ∉ part := by
  induction text generalizing part with
  | nil =>
    rw [List.splitOn_nil, List.mem_singleton] at h
    rw [h]
    exact List.not_mem_nil
  | cons u text ih =>
    by_cases hu : u = sep
    · rw [hu, splitOn_cons_sep] at h
      rcases List.mem_cons.mp h with rfl | h
      · exact List.not_mem_nil
      · exact ih h
    · rw [splitOn_cons_ne sep hu] at h
      obtain ⟨first, rest, hparts⟩ := List.exists_cons_of_ne_nil
        (List.splitOn_ne_nil sep text)
      rw [hparts] at h ih
      rcases List.mem_cons.mp h with rfl | h
      · rw [List.mem_cons, not_or]
        exact ⟨Ne.symm hu, ih List.mem_cons_self⟩
      · exact ih (List.mem_cons_of_mem _ h)

theorem mem_of_mem_splitOn {part : List Nat} {sep u : Nat}
    (h : part ∈ text.splitOn sep) (hu : u ∈ part) : u ∈ text := by
  have hmem := @mem_intercalate_of_mem _ sep _ _ _ h hu
  rwa [List.intercalate_splitOn] at hmem

theorem slashes_eq (h : 92 ∉ text) : slashes text = text := by
  unfold slashes
  conv_rhs => rw [← List.map_id text]
  refine List.map_congr_left fun u hu => ?_
  have hne : u ≠ 92 := by
    rintro rfl
    exact h hu
  exact if_neg hne

theorem notMem_slashes (text : List Nat) : 92 ∉ slashes text := by
  intro h
  obtain ⟨u, -, hu⟩ := List.mem_map.mp h
  split at hu <;> omega

theorem segmentsFrom_comps {cs : List (List Nat)}
    (h : ∀ c ∈ cs, Comp c) (result : List (List Nat)) :
    segmentsFrom result cs = some (result ++ cs) := by
  induction cs generalizing result with
  | nil => rw [segmentsFrom, List.append_nil]
  | cons c cs ih =>
    obtain ⟨hc, hcs⟩ := List.forall_mem_cons.mp h
    rw [segmentsFrom, if_neg (by simp [hc.ne_nil, hc.ne_dot]),
      if_neg hc.ne_dots, ih hcs]
    simp

/-- What is left over are parts that are no dots. -/
theorem mem_segmentsFrom {result : List (List Nat)}
    (h : segmentsFrom result parts = some segments) (hc : c ∈ segments) :
    c ∈ result ∨ (c ∈ parts ∧ c ≠ [] ∧ c ≠ codes "." ∧ c ≠ codes "..") := by
  induction parts generalizing result with
  | nil =>
    rw [segmentsFrom, Option.some.injEq] at h
    exact .inl (h ▸ hc)
  | cons part parts ih =>
    rw [segmentsFrom] at h
    split at h
    · rcases ih h with hm | ⟨hm, hne⟩
      · exact .inl hm
      · exact .inr ⟨List.mem_cons_of_mem _ hm, hne⟩
    · rename_i hplain
      rw [not_or] at hplain
      split at h
      · split at h
        · cases h
        · rcases ih h with hm | ⟨hm, hne⟩
          · exact .inl (List.mem_of_mem_dropLast hm)
          · exact .inr ⟨List.mem_cons_of_mem _ hm, hne⟩
      · rename_i hdots
        rcases ih h with hm | ⟨hm, hne⟩
        · rcases List.mem_append.mp hm with hm | hm
          · exact .inl hm
          · rw [List.mem_singleton] at hm
            rw [hm]
            exact .inr ⟨List.mem_cons_self, hplain.1, hplain.2, hdots⟩
        · exact .inr ⟨List.mem_cons_of_mem _ hm, hne⟩

/-- The parts of a text without backslashes and zeros. -/
theorem comp_of_segments
    (h : segmentsFrom [] ((slashes text).splitOn 47) = some segments)
    (hnul : 0 ∉ text) : ∀ c ∈ segments, Comp c := by
  intro c hc
  rcases mem_segmentsFrom h hc with hm | ⟨hm, hne, hdot, hdots⟩
  · cases hm
  · refine ⟨hne, hdot, hdots, notMem_of_mem_splitOn hm, fun hb => ?_,
      fun hz => ?_⟩
    · exact notMem_slashes text (mem_of_mem_splitOn hm hb)
    · obtain ⟨u, hu, hzero⟩ := List.mem_map.mp (mem_of_mem_splitOn hm hz)
      split at hzero
      · omega
      · exact hnul (hzero ▸ hu)

theorem segments_ne (h : normalizedSegments path false = some parts) :
    parts ≠ [] ∧ ∀ c ∈ parts, Comp c := by
  unfold normalizedSegments at h
  split at h
  · cases h
  rename_i hpath
  rw [not_or] at hpath
  split at h
  · cases h
  split at h
  · cases h
  · rename_i segments hsegments
    split at h
    · cases h
    · rename_i hne
      obtain rfl := Option.some.inj h
      exact ⟨hne, comp_of_segments hsegments hpath.2⟩

section Joined

variable {cs : List (List Nat)}

theorem notMem_join {u : Nat} (hu : u ≠ 47) (h : ∀ c ∈ cs, u ∉ c) :
    u ∉ [47].intercalate cs := by
  intro hm
  rcases mem_intercalate hm with rfl | ⟨c, hc, hmem⟩
  · exact hu rfl
  · exact h c hc hmem

theorem join_ne_nil (hne : cs ≠ []) (h : ∀ c ∈ cs, Comp c) :
    [47].intercalate cs ≠ [] :=
  intercalate_ne_nil hne fun c hc => ⟨(h c hc).ne_nil, (h c hc).slash⟩

/-- Joined components are taken apart again. -/
theorem segments_join (hne : cs ≠ []) (h : ∀ c ∈ cs, Comp c) :
    normalizedSegments ([47].intercalate cs) false = some cs := by
  have hslash : 92 ∉ [47].intercalate cs :=
    notMem_join (by norm_num) fun c hc => (h c hc).backslash
  have hnul : 0 ∉ [47].intercalate cs :=
    notMem_join (by norm_num) fun c hc => (h c hc).nul
  have hhead : ¬ (([47].intercalate cs).head? = some 47
      ∨ ([47].intercalate cs).head? = some 92) := by
    rintro (hm | hm)
    · exact head?_intercalate
        (fun c hc => ⟨(h c hc).ne_nil, (h c hc).slash⟩) hm
    · exact hslash (List.mem_of_head? hm)
  rw [normalizedSegments, if_neg (by simp [join_ne_nil hne h, hnul]),
    if_neg (by simp [hhead]), slashes_eq hslash,
    List.splitOn_intercalate 47 (fun c hc => (h c hc).slash) hne,
    segmentsFrom_comps h]
  dsimp only
  rw [List.nil_append, if_neg hne]

theorem segments_comp (h : Comp c) : normalizedSegments c false = some [c] := by
  have hone := @segments_join [c] (by simp) (by simpa using h)
  rwa [intercalate_singleton] at hone

end Joined

-- ============================= white space

/-- The white space of a text. -/
def spaces (text : List Nat) : Nat := text.countP isSpace

/-- The white space of components. -/
def weight (cs : List (List Nat)) : Nat := (cs.map spaces).sum

theorem spaces_intercalate (cs : List (List Nat)) :
    spaces ([47].intercalate cs) = weight cs := by
  induction cs with
  | nil => rfl
  | cons c cs ih =>
    by_cases hcs : cs = []
    · rw [hcs, intercalate_singleton]
      simp [weight]
    · rw [intercalate_cons hcs, spaces, List.countP_append,
        List.countP_cons_of_neg (by decide)]
      change spaces c + spaces ([47].intercalate cs) = _
      rw [ih]
      simp [weight]

theorem spaces_render (absolute : Bool) (cs : List (List Nat)) :
    spaces (render absolute cs) = weight cs := by
  unfold render
  split
  · rename_i h
    rw [h]
    cases absolute <;> rfl
  · rw [spaces, List.countP_append]
    change _ + spaces ([47].intercalate cs) = _
    rw [spaces_intercalate]
    cases absolute <;> simp [codes, isSpace]

theorem spaces_slashes (text : List Nat) :
    spaces (slashes text) = spaces text := by
  rw [spaces, slashes, List.countP_map]
  refine List.countP_congr fun u _ => ?_
  rw [Function.comp_apply]
  split
  · rename_i h
    rw [h]
    decide
  · exact Iff.rfl

theorem weight_splitOn (text : List Nat) :
    weight (text.splitOn 47) = spaces text := by
  rw [← spaces_intercalate, List.intercalate_splitOn]

theorem weight_append (cs ds : List (List Nat)) :
    weight (cs ++ ds) = weight cs + weight ds := by
  simp [weight]

/-- Components are dropped, never made. -/
theorem weight_segmentsFrom {result : List (List Nat)}
    (h : segmentsFrom result parts = some segments) :
    weight segments ≤ weight result + weight parts := by
  induction parts generalizing result with
  | nil =>
    rw [segmentsFrom, Option.some.injEq] at h
    rw [h]
    exact Nat.le_add_right _ _
  | cons part parts ih =>
    have hcons : weight (part :: parts) = spaces part + weight parts := by
      simp [weight]
    rw [segmentsFrom] at h
    split at h
    · have := ih h
      omega
    split at h
    · split at h
      · cases h
      · have hle : weight result.dropLast ≤ weight result := by
          rcases List.eq_nil_or_concat' result with rfl | ⟨cs, c, rfl⟩
          · exact Nat.le_refl _
          · rw [List.dropLast_concat, weight_append]
            exact Nat.le_add_right _ _
        have := ih h
        omega
    · have := ih h
      rw [weight_append] at this
      have hone : weight [part] = spaces part := by simp [weight]
      omega

-- ============================= normalising

/-- A normalised path, and the white space it can have. -/
theorem normalize_some {normalized : List Nat}
    (h : normalizeSshSftpRemotePath path = some normalized) :
    ∃ absolute cs, normalized = render absolute cs ∧ (∀ c ∈ cs, Comp c)
      ∧ spaces normalized ≤ spaces (trim path) := by
  unfold normalizeSshSftpRemotePath at h
  split at h
  · cases h
  rename_i hpath
  rw [not_or] at hpath
  have hnul : 0 ∉ trim path := by
    obtain ⟨front, back, hsplit, -, -⟩ := trimBy_split isSpace path
    intro hm
    apply hpath.2
    rw [hsplit]
    exact List.mem_append_left _ (List.mem_append_right _ hm)
  dsimp only at h
  split at h
  · cases h
  · rename_i segments hsegments
    have hcomp := comp_of_segments hsegments hnul
    have hweight := weight_segmentsFrom hsegments
    have hzero : weight [] = 0 := rfl
    rw [weight_splitOn, spaces_slashes, hzero, Nat.zero_add] at hweight
    refine ⟨decide ((slashes (trim path)).head? = some 47), segments, ?_,
      hcomp, ?_⟩
    · unfold render
      split at h
      · rename_i hnil
        rw [if_pos hnil, ← Option.some.inj h]
        simp
      · rename_i hne
        rw [if_neg hne, ← Option.some.inj h]
        simp
    · split at h
      · rw [← Option.some.inj h]
        split
        · exact Nat.zero_le _
        · exact Nat.zero_le _
      · rw [← Option.some.inj h, spaces, List.countP_append]
        change _ + spaces ([47].intercalate segments) ≤ _
        rw [spaces_intercalate]
        have hsep : List.countP isSpace
            (if (slashes (trim path)).head? = some 47 then codes "/" else [])
            = 0 := by
          split <;> rfl
        omega

/-- Text that is not trimmed is normalised by its components. -/
theorem normalize_untrimmed (htrim : trim path = path) (hne : path ≠ [])
    (hnul : 0 ∉ path) (hslash : 92 ∉ path)
    (h : segmentsFrom [] (path.splitOn 47) = some segments) :
    normalizeSshSftpRemotePath path
      = some (render (decide (path.head? = some 47)) segments) := by
  rw [normalizeSshSftpRemotePath, htrim, if_neg (by simp [hne, hnul]),
    slashes_eq hslash]
  dsimp only
  rw [h]
  unfold render
  dsimp only
  split <;> simp

-- ================================ one join

def startsSpace (text : List Nat) : Bool := text.head?.any isSpace

def endsSpace (text : List Nat) : Bool := text.getLast?.any isSpace

theorem trim_eq_self_iff :
    trim text = text ↔ startsSpace text = false ∧ endsSpace text = false := by
  rw [trim, trimBy_eq_self_iff, startsSpace, endsSpace]
  cases text.head? <;> cases text.getLast? <;> simp

/-- The joined path before it is normalised. -/
def joinedText (parent part : List Nat) : List Nat :=
  if parent = codes "/" then codes "/" ++ part
  else if parent = codes "." then codes "./" ++ part
  else parent ++ codes "/" ++ part

theorem joinRemote_eq (hc : Comp c) (parent : List Nat) :
    joinSshSftpRemotePath parent c
      = (normalizeSshSftpRemotePath parent).bind fun normalizedParent =>
        normalizeSshSftpRemotePath (joinedText normalizedParent c) := by
  unfold joinSshSftpRemotePath
  rw [segments_comp hc]
  cases normalizeSshSftpRemotePath parent <;> rfl

theorem spaces_joinedText (parent part : List Nat) :
    spaces (joinedText parent part) = spaces parent + spaces part := by
  unfold joinedText spaces
  split
  · rename_i h
    rw [h, List.countP_append]
  split
  · rename_i h
    rw [h, List.countP_append]
    rfl
  · rw [List.countP_append, List.countP_append]
    rfl

theorem endsSpace_joinedText (parent : List Nat)
    (hc : c ≠ []) : endsSpace (joinedText parent c) = endsSpace c := by
  unfold joinedText endsSpace
  split
  · rw [List.getLast?_append_of_ne_nil _ hc]
  split
  · rw [List.getLast?_append_of_ne_nil _ hc]
  · rw [List.getLast?_append_of_ne_nil _ hc]

/-- A join does not add white space. -/
theorem joinRemote_le {parent next : List Nat} (hc : Comp c)
    (h : joinSshSftpRemotePath parent c = some next) :
    spaces next ≤ spaces parent + spaces c := by
  rw [joinRemote_eq hc] at h
  obtain ⟨P, hP, hnext⟩ := Option.bind_eq_some_iff.mp h
  obtain ⟨_, _, -, -, hparent⟩ := normalize_some hP
  obtain ⟨_, _, -, -, hjoined⟩ := normalize_some hnext
  have h1 := countP_trimBy_le isSpace parent
  have h2 := countP_trimBy_le isSpace (joinedText P c)
  have h3 := spaces_joinedText P c
  unfold spaces trim at *
  omega

/-- It takes some away where anything is trimmed. -/
theorem joinRemote_lt {parent next : List Nat} (hc : Comp c)
    (h : joinSshSftpRemotePath parent c = some next)
    (htrim : trim parent ≠ parent ∨ endsSpace c = true) :
    spaces next < spaces parent + spaces c := by
  rw [joinRemote_eq hc] at h
  obtain ⟨P, hP, hnext⟩ := Option.bind_eq_some_iff.mp h
  obtain ⟨_, _, -, -, hparent⟩ := normalize_some hP
  obtain ⟨_, _, -, -, hjoined⟩ := normalize_some hnext
  have h1 := countP_trimBy_le isSpace parent
  have h2 := countP_trimBy_le isSpace (joinedText P c)
  have h3 := spaces_joinedText P c
  rcases htrim with htrim | hends
  · have hlt := countP_trimBy_lt isSpace htrim
    unfold spaces trim at *
    omega
  · have hne : trim (joinedText P c) ≠ joinedText P c := by
      intro heq
      have hend := (trim_eq_self_iff.mp heq).2
      rw [endsSpace_joinedText P hc.ne_nil, hends] at hend
      cases hend
    have hlt := countP_trimBy_lt isSpace hne
    unfold spaces trim at *
    omega

section Render

variable {absolute : Bool} {cs : List (List Nat)}

theorem render_ne_nil (h : ∀ c ∈ cs, Comp c) : render absolute cs ≠ [] := by
  unfold render
  split
  · cases absolute <;> decide
  · exact List.append_ne_nil_of_right_ne_nil _ (join_ne_nil ‹_› h)

theorem notMem_render {u : Nat} (hu : u ≠ 47 ∧ u ≠ 46)
    (h : ∀ c ∈ cs, u ∉ c) : u ∉ render absolute cs := by
  unfold render
  split
  · cases absolute <;> simp [codes, hu]
  · rw [List.mem_append, not_or]
    refine ⟨?_, notMem_join hu.1 h⟩
    cases absolute <;> simp [codes, hu]

/-- The parts of a normalised path are its components again. -/
theorem segments_render (h : ∀ c ∈ cs, Comp c) :
    segmentsFrom [] ((render absolute cs).splitOn 47) = some cs
      ∧ decide ((render absolute cs).head? = some 47) = absolute := by
  by_cases hcs : cs = []
  · rw [hcs]
    cases absolute <;> decide
  · have hclean : ∀ c ∈ cs, 47 ∉ c := fun c hc => (h c hc).slash
    unfold render
    rw [if_neg hcs]
    cases absolute with
    | true =>
      refine ⟨?_, by simp [codes]⟩
      show segmentsFrom [] ((47 :: [47].intercalate cs).splitOn 47) = _
      rw [splitOn_cons_sep, List.splitOn_intercalate 47 hclean hcs,
        segmentsFrom, if_pos (.inl rfl), segmentsFrom_comps h]
      rfl
    | false =>
      constructor
      · show segmentsFrom [] (([47].intercalate cs).splitOn 47) = _
        rw [List.splitOn_intercalate 47 hclean hcs, segmentsFrom_comps h]
        rfl
      · have hhead := @head?_intercalate _ 47 cs
          fun c hc => ⟨(h c hc).ne_nil, (h c hc).slash⟩
        simpa using hhead

theorem normalize_render (h : ∀ c ∈ cs, Comp c)
    (htrim : trim (render absolute cs) = render absolute cs) :
    normalizeSshSftpRemotePath (render absolute cs)
      = some (render absolute cs) := by
  obtain ⟨hsegments, habsolute⟩ := @segments_render absolute _ h
  rw [normalize_untrimmed htrim (render_ne_nil h)
    (notMem_render (by norm_num) fun c hc => (h c hc).nul)
    (notMem_render (by norm_num) fun c hc => (h c hc).backslash) hsegments,
    habsolute]

theorem joinedText_render (h : ∀ c ∈ cs, Comp c) {c : List Nat} :
    joinedText (render absolute cs) c
      = if absolute = false ∧ cs = [] then codes "./" ++ c
        else render absolute (cs ++ [c]) := by
  by_cases hcs : cs = []
  · rw [hcs]
    cases absolute with
    | true =>
      have hone : render true [c] = codes "/" ++ c := by
        rw [render, if_neg (by simp), intercalate_singleton]
        rfl
      rw [if_neg (by simp), List.nil_append, hone]
      rfl
    | false =>
      rw [if_pos ⟨rfl, rfl⟩]
      rfl
  · have hjoin := join_ne_nil hcs h
    have hroot : render absolute cs ≠ codes "/" := by
      intro heq
      unfold render at heq
      rw [if_neg hcs] at heq
      cases absolute with
      | true =>
        have hnil : [47].intercalate cs = [] := by
          simpa [codes] using heq
        exact hjoin hnil
      | false =>
        have hhead := @head?_intercalate _ 47 cs
          fun c hc => ⟨(h c hc).ne_nil, (h c hc).slash⟩
        have heq' : [47].intercalate cs = codes "/" := heq
        rw [heq'] at hhead
        exact hhead rfl
    have hdot : render absolute cs ≠ codes "." := by
      intro heq
      have hsegments := (@segments_render absolute _ h).1
      rw [heq] at hsegments
      have hnone : segmentsFrom [] ((codes ".").splitOn 47) = some [] := by
        decide
      rw [hnone] at hsegments
      exact hcs (Option.some.inj hsegments).symm
    rw [joinedText, if_neg hroot, if_neg hdot, if_neg fun hc => hcs hc.2,
      render, render, if_neg hcs, if_neg
        (List.append_ne_nil_of_right_ne_nil cs (List.cons_ne_nil c [])),
      intercalate_concat hcs]
    simp [codes]

theorem startsSpace_append {s t : List Nat} (hs : s ≠ []) :
    startsSpace (s ++ t) = startsSpace s := by
  rw [startsSpace, startsSpace, List.head?_append_of_ne_nil _ hs]

theorem trim_joinedText (h : ∀ c ∈ cs, Comp c) (hc : Comp c)
    (htrim : trim (render absolute cs) = render absolute cs)
    (hends : endsSpace c = false) :
    trim (joinedText (render absolute cs) c)
      = joinedText (render absolute cs) c := by
  have hstart : startsSpace (joinedText (render absolute cs) c) = false := by
    have hparent := (trim_eq_self_iff.mp htrim).1
    unfold joinedText
    split
    · rfl
    split
    · rfl
    · rw [List.append_assoc, startsSpace_append (render_ne_nil h)]
      exact hparent
  rw [trim_eq_self_iff, endsSpace_joinedText _ hc.ne_nil]
  exact ⟨hstart, hends⟩

/-- Without a trim the component is put behind the others. -/
theorem joinRemote_render (h : ∀ c ∈ cs, Comp c) (hc : Comp c)
    (htrim : trim (render absolute cs) = render absolute cs)
    (hends : endsSpace c = false) :
    joinSshSftpRemotePath (render absolute cs) c
      = some (render absolute (cs ++ [c])) := by
  have hcs' : ∀ d ∈ cs ++ [c], Comp d := by
    intro d hd
    rcases List.mem_append.mp hd with hd | hd
    · exact h d hd
    · rw [List.mem_singleton.mp hd]
      exact hc
  have hjoined := trim_joinedText h hc htrim hends
  rw [joinRemote_eq hc, normalize_render h htrim, Option.bind_some]
  by_cases hroot : absolute = false ∧ cs = []
  · obtain ⟨rfl, rfl⟩ := hroot
    have htext : joinedText (render false []) c = codes "./" ++ c := by
      rw [joinedText_render h, if_pos ⟨rfl, rfl⟩]
    have hsplit : segmentsFrom [] ((codes "./" ++ c).splitOn 47)
        = some [c] := by
      show segmentsFrom [] ((46 :: 47 :: c).splitOn 47) = _
      rw [splitOn_cons_ne 47 (by norm_num), splitOn_cons_sep,
        List.splitOn_eq_singleton hc.slash]
      show segmentsFrom [] [[46], c] = _
      rw [segmentsFrom, if_pos (.inr rfl),
        segmentsFrom_comps (by simpa using hc)]
      rfl
    rw [htext] at hjoined ⊢
    rw [normalize_untrimmed hjoined (by simp [codes])
      (by simp [codes, hc.nul]) (by simp [codes, hc.backslash]) hsplit]
    rfl
  · have htext : joinedText (render absolute cs) c
        = render absolute (cs ++ [c]) := by
      rw [joinedText_render h, if_neg hroot]
    rw [htext] at hjoined ⊢
    exact normalize_render hcs' hjoined

end Render

-- =============================== all joins

theorem joinParts_le {current final : List Nat} (hparts : ∀ c ∈ parts, Comp c)
    (h : joinParts current parts = some final) :
    spaces final ≤ spaces current + weight parts := by
  induction parts generalizing current with
  | nil =>
    rw [joinParts, Option.some.injEq] at h
    rw [h]
    exact Nat.le_add_right _ _
  | cons c parts ih =>
    obtain ⟨hc, hrest⟩ := List.forall_mem_cons.mp hparts
    rw [joinParts] at h
    split at h
    · cases h
    · rename_i next hnext
      have h1 := joinRemote_le hc hnext
      have h2 := ih hrest h
      have hcons : weight (c :: parts) = spaces c + weight parts := by
        simp [weight]
      omega

/-- No join trims anything. -/
def Kept (absolute : Bool) : List (List Nat) → List (List Nat) → Prop
  | _, [] => True
  | cs, c :: rest =>
    trim (render absolute cs) = render absolute cs ∧ endsSpace c = false
      ∧ Kept absolute (cs ++ [c]) rest

/-- The components arrive as they are exactly when no join trims. -/
theorem joinParts_iff {absolute : Bool} {cs : List (List Nat)}
    (hcs : ∀ c ∈ cs, Comp c) (hparts : ∀ c ∈ parts, Comp c) :
    joinParts (render absolute cs) parts = some (render absolute (cs ++ parts))
      ↔ Kept absolute cs parts := by
  induction parts generalizing cs with
  | nil => simp [joinParts, Kept]
  | cons c parts ih =>
    obtain ⟨hc, hrest⟩ := List.forall_mem_cons.mp hparts
    have hcs' : ∀ d ∈ cs ++ [c], Comp d := by
      intro d hd
      rcases List.mem_append.mp hd with hd | hd
      · exact hcs d hd
      · rw [List.mem_singleton.mp hd]
        exact hc
    have hassoc : cs ++ c :: parts = (cs ++ [c]) ++ parts := by simp
    by_cases hkept : trim (render absolute cs) = render absolute cs
        ∧ endsSpace c = false
    · rw [joinParts, joinRemote_render hcs hc hkept.1 hkept.2, Kept,
        and_iff_right hkept.1, and_iff_right hkept.2, hassoc]
      exact ih hcs' hrest
    · constructor
      · intro h
        exfalso
        rw [joinParts] at h
        split at h
        · cases h
        · rename_i next hnext
          have hlt := joinRemote_lt hc hnext (by
            rw [not_and_or, Bool.not_eq_false] at hkept
            exact hkept)
          have hle := joinParts_le hrest h
          rw [spaces_render, weight_append] at hle
          rw [spaces_render] at hlt
          have hcons : weight (c :: parts) = spaces c + weight parts := by
            simp [weight]
          omega
      · intro h
        exact absurd ⟨h.1, h.2.1⟩ hkept

/-- When the parts of a path arrive below a root as they are. -/
structure Survives (root : List Nat) (parts : List (List Nat)) : Prop where
  root_trimmed : trim root = root
  ends : ∀ c ∈ parts, endsSpace c = false
  first : root = codes "." → 2 ≤ parts.length →
    startsSpace (parts.headD []) = false

theorem kept_iff_ends {absolute : Bool} {cs : List (List Nat)}
    (hroot : ¬ (absolute = false ∧ cs = [])) (hcs : ∀ c ∈ cs, Comp c)
    (hparts : ∀ c ∈ parts, Comp c)
    (htrim : trim (render absolute cs) = render absolute cs) :
    Kept absolute cs parts ↔ ∀ c ∈ parts, endsSpace c = false := by
  induction parts generalizing cs with
  | nil => simp [Kept]
  | cons c parts ih =>
    obtain ⟨hc, hrest⟩ := List.forall_mem_cons.mp hparts
    rw [Kept, and_iff_right htrim, List.forall_mem_cons]
    refine and_congr_right fun hends => ?_
    have hjoined := trim_joinedText hcs hc htrim hends
    rw [joinedText_render hcs, if_neg hroot] at hjoined
    refine ih (by simp) (fun d hd => ?_) hrest hjoined
    rcases List.mem_append.mp hd with hd | hd
    · exact hcs d hd
    · rw [List.mem_singleton.mp hd]
      exact hc

theorem kept_iff {absolute : Bool} {cs parts : List (List Nat)}
    (hcs : ∀ c ∈ cs, Comp c) (hparts : ∀ c ∈ parts, Comp c)
    (hne : parts ≠ []) :
    Kept absolute cs parts ↔ Survives (render absolute cs) parts := by
  by_cases hroot : absolute = false ∧ cs = []
  · obtain ⟨rfl, rfl⟩ := hroot
    obtain ⟨c, rest, rfl⟩ := List.exists_cons_of_ne_nil hne
    obtain ⟨hc, hrest⟩ := List.forall_mem_cons.mp hparts
    have hdot : trim (codes ".") = codes "." := by decide
    have hone : render false [c] = c := by
      rw [render, if_neg (by simp), intercalate_singleton]
      rfl
    rw [Kept, List.nil_append]
    constructor
    · intro ⟨_, hends, hkept⟩
      refine ⟨hdot, ?_, fun _ hlen => ?_⟩
      · refine List.forall_mem_cons.mpr ⟨hends, ?_⟩
        cases rest with
        | nil => simp
        | cons d rest =>
          exact (kept_iff_ends (by simp) (by simpa using hc) hrest
            hkept.1).mp hkept
      · cases rest with
        | nil => simp at hlen
        | cons d rest =>
          have htrim := hkept.1
          rw [hone] at htrim
          exact (trim_eq_self_iff.mp htrim).1
    · intro h
      obtain ⟨hends, hrestends⟩ := List.forall_mem_cons.mp h.ends
      refine ⟨hdot, hends, ?_⟩
      cases rest with
      | nil => trivial
      | cons d rest =>
        have hstart := h.first rfl (by simp)
        refine (kept_iff_ends (by simp) (by simpa using hc) hrest ?_).mpr
          hrestends
        rw [hone, trim_eq_self_iff]
        exact ⟨hstart, hends⟩
  · constructor
    · intro h
      obtain ⟨c, rest, rfl⟩ := List.exists_cons_of_ne_nil hne
      have htrim := h.1
      refine ⟨htrim, (kept_iff_ends hroot hcs hparts htrim).mp h, ?_⟩
      intro heq
      exfalso
      have hsegments := (@segments_render absolute _ hcs)
      rw [heq] at hsegments
      have hnone : segmentsFrom [] ((codes ".").splitOn 47) = some [] := by
        decide
      rw [hnone] at hsegments
      exact hroot ⟨hsegments.2.symm, (Option.some.inj hsegments.1).symm⟩
    · intro h
      exact (kept_iff_ends hroot hcs hparts h.root_trimmed).mpr h.ends

-- ============================= whole paths

/-- A relative path below a normalised root. -/
def below (root path : List Nat) : List Nat :=
  if root = codes "/" then root ++ path
  else if root = codes "." then path
  else root ++ codes "/" ++ path

theorem below_render {absolute : Bool} {cs parts : List (List Nat)}
    (hcs : ∀ c ∈ cs, Comp c) (hparts : ∀ c ∈ parts, Comp c)
    (hne : parts ≠ []) :
    below (render absolute cs) ([47].intercalate parts)
      = render absolute (cs ++ parts) := by
  obtain ⟨c, rest, rfl⟩ := List.exists_cons_of_ne_nil hne
  have hlast : ∀ ds : List (List Nat), ds ≠ [] →
      [47].intercalate (ds ++ c :: rest)
        = [47].intercalate ds ++ 47 :: [47].intercalate (c :: rest) := by
    intro ds hds
    induction ds with
    | nil => exact absurd rfl hds
    | cons d ds ih =>
      by_cases hnil : ds = []
      · rw [hnil, List.singleton_append, intercalate_cons (by simp),
          intercalate_singleton]
      · rw [List.cons_append, intercalate_cons (by simp), ih hnil,
          intercalate_cons hnil]
        simp
  have hjoined := @joinedText_render absolute cs hcs
    ([47].intercalate (c :: rest))
  by_cases hnil : cs = []
  · rw [hnil, List.nil_append]
    unfold below render
    rw [if_pos rfl, if_neg (List.cons_ne_nil c rest)]
    cases absolute <;> rfl
  · rw [if_neg fun h => hnil h.2] at hjoined
    unfold joinedText at hjoined
    unfold below
    split
    · rename_i hroot
      rw [if_pos hroot] at hjoined
      rw [hroot, hjoined, render, render,
        if_neg (List.append_ne_nil_of_left_ne_nil hnil _),
        if_neg (List.append_ne_nil_of_left_ne_nil hnil _),
        intercalate_concat hnil, hlast cs hnil]
    · rename_i hroot
      rw [if_neg hroot] at hjoined
      have hdot : render absolute cs ≠ codes "." := by
        intro heq
        have hsegments := (@segments_render absolute _ hcs).1
        rw [heq] at hsegments
        have hnone : segmentsFrom [] ((codes ".").splitOn 47) = some [] := by
          decide
        rw [hnone] at hsegments
        exact hnil (Option.some.inj hsegments).symm
      rw [if_neg hdot] at hjoined ⊢
      rw [hjoined, render, render,
        if_neg (List.append_ne_nil_of_left_ne_nil hnil _),
        if_neg (List.append_ne_nil_of_left_ne_nil hnil _),
        intercalate_concat hnil, hlast cs hnil]

theorem below_inj {root path' : List Nat}
    (h : below root path = below root path') : path = path' := by
  unfold below at h
  split at h
  · exact List.append_cancel_left h
  split at h
  · exact h
  · exact List.append_cancel_left h

/-- A relative path arrives below the root as it is exactly when its
components survive. -/
theorem joinRelative_iff {root normalizedRoot : List Nat}
    (hroot : normalizeSshSftpRemotePath root = some normalizedRoot)
    (hne : parts ≠ []) (hparts : ∀ c ∈ parts, Comp c) :
    joinSshSftpRelativeRemotePath root ([47].intercalate parts)
        = some (below normalizedRoot ([47].intercalate parts))
      ↔ Survives normalizedRoot parts := by
  obtain ⟨absolute, cs, rfl, hcs, -⟩ := normalize_some hroot
  rw [joinSshSftpRelativeRemotePath, hroot, segments_join hne hparts]
  dsimp only
  rw [below_render hcs hparts hne, joinParts_iff hcs hparts,
    kept_iff hcs hparts hne]

end RemoteDesk.Sftp
