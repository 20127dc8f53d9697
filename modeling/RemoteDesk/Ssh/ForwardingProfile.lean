/-
Normalised forwarding profiles (ssh_forwarding_manager.cpp).

`Normal` is what a profile looks like once `validateAndNormalize` has
accepted it (`normal_of_accepted`), and a profile that looks so is
accepted as it stands (`Normal.accepted`): normalising is done once. The
hosts rest on the endpoint parser reading a transport host back as the
endpoint it was written for (`parseHost_transport`).

Bound to the loopback, a normal profile names it in one of three ways
(`loopback_spelling`): whatever was given, the host that is kept is what
the loopback test was made on.
-/
import RemoteDesk.Endpoint.Canonical
import RemoteDesk.Ssh.ForwardingManager

namespace RemoteDesk.Ssh.Forwarding

open Lib Endpoint

-- ================================ trimming

theorem trim_trim (value : List Nat) : trim (trim value) = trim value := by
  refine (trimBy_eq_self_iff isSpace).mpr ⟨head_trimBy isSpace, ?_⟩
  intro x hx
  have hback := List.head?_dropWhile_not isSpace
    (value.dropWhile isSpace).reverse
  rw [trim, trimBy, List.getLast?_reverse, Option.mem_def] at hx
  rw [hx] at hback
  simpa using hback

/-- Nothing is trimmed from a text without spaces. -/
theorem trim_of_clean {value : List Nat}
    (h : ∀ ch ∈ value, isSpace ch = false) : trim value = value := by
  refine (trimBy_eq_self_iff isSpace).mpr ⟨fun x hx => ?_, fun x hx => ?_⟩
  · exact h x (List.mem_of_mem_head? hx)
  · exact h x (List.mem_of_mem_getLast? hx)

-- =================================== hosts

/-- A transport host is kept by every check that stands before the
parser. -/
theorem transport_kept {mode : ParseMode} {e : Address}
    (he : Canonical mode e) :
    trim (Native.transportHost e) = Native.transportHost e
      ∧ ¬ (Native.transportHost e = []
        ∨ (Native.transportHost e).length > 255) := by
  obtain ⟨hne, -, hchars, -⟩ := transport_plain he
  refine ⟨trim_of_clean fun ch hch => ?_, not_or.mpr ⟨hne, ?_⟩⟩
  · obtain ⟨⟨hlo, hhi, -⟩, -, -⟩ := host_char (hchars ch hch)
    simp [isSpace]
    omega
  · have hscope := he.scope.plain.2
    obtain ⟨-, -, hlen, hother⟩ := he.plain
    unfold Native.transportHost
    split
    · omega
    · rename_i hcase
      rw [not_or, not_not] at hcase
      cases he with
      | ipv4 hquad hc => cases hcase.1
      | hostname hh => cases hcase.1
      | ipv6 hw hc hl hs =>
        have hshort := (ipv6_chars (canonicalIpv6_text hw)).2.1
        have hone : (codes "%").length = 1 := by decide
        simp only [List.length_append] at hscope ⊢
        omega

section Profiles

variable {inetPton : List Nat → Option (List Nat)}

/-- What the parser accepts, it accepts again in its transport form. -/
theorem parse_again (h : Rfc4291 inetPton) {host : List Nat}
    (hok : (Native.parseHost inetPton host .persisted).ok = true) :
    ∃ e, Canonical .persisted e
      ∧ Native.parseHost inetPton host .persisted = accepted e
      ∧ Native.parseHost inetPton (Native.transportHost e) .persisted
        = accepted e := by
  obtain ⟨e, he, hport, hparse⟩ := parseHost_canonical h hok
  have hzero : { e with port := 0 } = e := by rw [← hport]
  refine ⟨e, he, hparse, ?_⟩
  rw [parseHost_transport h he, hzero]

theorem normalizeTargetHost_again (h : Rfc4291 inetPton)
    {mode : SshForwardingMode} {given host : List Nat}
    (hhost : normalizeTargetHost inetPton mode given = some host) :
    trim host = host ∧ normalizeTargetHost inetPton mode host = some host := by
  unfold normalizeTargetHost at hhost
  split at hhost
  · cases hhost
  · dsimp only at hhost
    split at hhost
    · cases hhost
    · rename_i hgood
      rw [not_or, Bool.not_eq_true', Bool.not_eq_false] at hgood
      obtain ⟨hok, hscope⟩ := hgood
      obtain ⟨e, he, hparse, hagain⟩ := parse_again h hok
      rw [hparse] at hhost hscope
      obtain rfl : Native.transportHost e = host := Option.some.inj hhost
      obtain ⟨htrim, hlen⟩ := transport_kept he
      refine ⟨htrim, ?_⟩
      unfold normalizeTargetHost
      dsimp only
      rw [if_neg hlen, hagain, if_neg]
      · rfl
      · rw [not_or]
        exact ⟨by simp [accepted], hscope⟩

/-- A bind host is one of the two wildcards, or the transport form of a
canonical endpoint. -/
theorem normalizeBindHost_cases (h : Rfc4291 inetPton)
    {mode : SshForwardingMode} {given host : List Nat}
    (hhost : normalizeBindHost inetPton mode given = some host) :
    (host = codes "0.0.0.0" ∨ host = codes "::")
      ∨ ∃ e, Canonical .persisted e ∧ host = Native.transportHost e
        ∧ Native.parseHost inetPton host .persisted = accepted e
        ∧ ¬ (mode = .remote ∧ e.scope ≠ []) := by
  unfold normalizeBindHost at hhost
  split at hhost
  · cases hhost
  · split at hhost
    · exact .inl (.inr (Option.some.inj hhost).symm)
    · split at hhost
      · dsimp only at hhost
        split at hhost
        · cases hhost
        · rename_i hgood
          rw [not_or, Bool.not_eq_true', Bool.not_eq_false] at hgood
          obtain ⟨hok, hscope⟩ := hgood
          obtain ⟨e, he, hparse, hagain⟩ := parse_again h hok
          rw [hparse] at hhost hscope
          obtain rfl : Native.transportHost e = host := Option.some.inj hhost
          exact .inr ⟨e, he, rfl, hagain, hscope⟩
      · rename_i hwild
        rw [not_and_or, not_not, not_not] at hwild
        rw [← Option.some.inj hhost]
        exact .inl hwild

theorem normalizeBindHost_again (h : Rfc4291 inetPton)
    {mode : SshForwardingMode} {given host : List Nat}
    (hhost : normalizeBindHost inetPton mode given = some host) :
    trim host = host ∧ host ≠ []
      ∧ normalizeBindHost inetPton mode host = some host := by
  rcases normalizeBindHost_cases h hhost with
    (rfl | rfl) | ⟨e, he, rfl, hparse, hscope⟩
  · exact ⟨by decide, by decide, rfl⟩
  · exact ⟨by decide, by decide, rfl⟩
  · obtain ⟨htrim, hlen⟩ := transport_kept he
    refine ⟨htrim, fun hnil => hlen (.inl hnil), ?_⟩
    have hbracket : Native.transportHost e ≠ codes "[::]" := by
      intro heq
      have hopen : 91 ∈ Native.transportHost e := by
        rw [heq]
        decide
      exact (host_char ((transport_plain he).2.2.1 91 hopen)).2.1 rfl
    unfold normalizeBindHost
    rw [if_neg hlen, if_neg hbracket]
    split
    · dsimp only
      rw [hparse, if_neg]
      · rfl
      · rw [not_or]
        exact ⟨by simp [accepted], hscope⟩
    · rfl

-- ================================ loopback

/-- `127.0.0.0/8`, as a dotted quad. -/
def InLoopbackNet (host : List Nat) : Prop :=
  ∃ octets, Quad host octets ∧ octets.head? = some 127

/-- The kept spellings of the loopback. -/
def LoopbackBind (host : List Nat) : Prop :=
  host = codes "localhost" ∨ InLoopbackNet host ∨ host = codes "::1"

theorem inLoopbackNet_of_quad {host octets : List Nat}
    (hquad : Quad host octets) (hstart : host.take 4 = codes "127.") :
    InLoopbackNet host := by
  refine ⟨octets, hquad, ?_⟩
  obtain ⟨o, p, os, rfl⟩ : ∃ o p os, octets = o :: p :: os := by
    have hlen := hquad.length_eq
    match octets, hlen with
    | o :: p :: os, _ => exact ⟨o, p, os, rfl⟩
  have hjoin : host = numeral 10 o
      ++ 46 :: [46].intercalate ((p :: os).map (numeral 10)) := by
    rw [hquad.text_eq, List.map_cons, intercalate_cons (by simp)]
  have hgiven : host = codes "127" ++ 46 :: host.drop 4 := by
    conv_lhs => rw [← List.take_append_drop 4 host, hstart]
    rfl
  have hdot : 46 ∉ numeral 10 o := fun hm => by
    cases isDigitCode_of_mem hm
  have hdot' : 46 ∉ codes "127" := by decide
  have hfirst := cut_append_sep hdot
    ([46].intercalate ((p :: os).map (numeral 10)))
  have hsecond := cut_append_sep hdot' (host.drop 4)
  rw [← hjoin] at hfirst
  rw [← hgiven, hfirst] at hsecond
  have hnum : codes "127" = numeral 10 127 := by decide
  rw [List.head?_cons, numeral_inj (by norm_num) (by norm_num)
    ((Prod.mk.inj hsecond).1.trans hnum)]

/-- Words written as `::1` are no link-local address. -/
theorem no_scope_of_loopback {words scope : List Nat} (hw : Words words)
    (hlocal : Native.ipv6LinkLocal (addressOf words) = true ↔ scope ≠ [])
    (h : Ark.canonicalIpv6 words = codes "::1") : scope = [] := by
  have hread := Ark.parseIpv6Words_iff.mpr (canonicalIpv6_text hw)
  rw [h] at hread
  have hone : Ark.parseIpv6Words (codes "::1") = some [0, 0, 0, 0, 0, 0, 0, 1] :=
    by decide
  obtain rfl := Option.some.inj (hone.symm.trans hread)
  by_contra hne
  exact absurd (hlocal.mpr hne) (by decide)

/-- A host kept after normalising that passes the loopback test is the
loopback in so many words: the wildcards do not pass it. -/
theorem loopback_spelling (h : Rfc4291 inetPton) {mode : SshForwardingMode}
    {given host : List Nat}
    (hhost : normalizeBindHost inetPton mode given = some host)
    (hloop : isLoopbackHost inetPton host = true) : LoopbackBind host := by
  unfold isLoopbackHost at hloop
  rw [(normalizeBindHost_again h hhost).1] at hloop
  rcases normalizeBindHost_cases h hhost with
    (rfl | rfl) | ⟨e, he, rfl, hparse, -⟩
  · cases hloop
  · have hzeros := @inetPton_canonical (List.replicate 8 0) _ h
      ⟨rfl, by decide⟩
    have htext : Ark.canonicalIpv6 (List.replicate 8 0) = codes "::" := by
      decide
    rw [htext] at hzeros
    have hparse : Native.parseHost inetPton (codes "::") .persisted
        = Native.parseBare inetPton (codes "::") false [] .none := rfl
    have hquad : Native.parseIpv4 (codes "::") = none := by decide
    rw [hparse, Native.parseBare, hquad, hzeros] at hloop
    cases hloop
  · rw [hparse] at hloop
    cases he with
    | ipv4 hquad hc =>
      have hstart := of_decide_eq_true hloop
      exact .inr (.inl (inLoopbackNet_of_quad hquad hstart))
    | hostname hh => exact .inl (of_decide_eq_true hloop)
    | ipv6 hw hc hl hs =>
      have hone : Ark.canonicalIpv6 _ = codes "::1" :=
        of_decide_eq_true hloop
      have hscope := no_scope_of_loopback hw hl hone
      rw [Native.transportHost, if_pos (.inr hscope)]
      exact .inr (.inr hone)

-- ======================== normalised profiles

/-- What is left of a profile after the checks. -/
structure Normal (inetPton : List Nat → Option (List Nat))
    (config : SshForwardingConfig) : Prop where
  version : config.schemaVersion ≠ 0
  id : trim config.id = config.id ∧ config.id ≠ [] ∧ config.id.length ≤ 96
  mode : isValidMode config.mode = true
  bind : trim config.bindHost = config.bindHost ∧ config.bindHost ≠ []
    ∧ normalizeBindHost inetPton config.mode config.bindHost
      = some config.bindHost
  loopback : config.allowPublicBind = true
    ∨ isLoopbackHost inetPton config.bindHost = true
      ∧ LoopbackBind config.bindHost
  port : isValidPort config.bindPort = true
  range : config.minBindPort ≠ 0 ∧ config.maxBindPort ≠ 0
    ∧ config.minBindPort ≤ config.bindPort
    ∧ config.bindPort ≤ config.maxBindPort
  connections : config.maxConnections ≠ 0
    ∧ config.maxConnections ≤ kMaxConnections
  target : trim config.targetHost = config.targetHost
    ∧ (config.mode = .dynamic
        ∧ config.targetHost = [] ∧ config.targetPort = 0
      ∨ config.mode ≠ .dynamic
        ∧ normalizeTargetHost inetPton config.mode config.targetHost
          = some config.targetHost
        ∧ isValidPort config.targetPort = true)

/-- A check that accepted has been passed. -/
theorem passed {c : Prop} [Decidable c] {result : SshForwardingResult}
    {config config' : SshForwardingConfig}
    {rest : SshForwardingResult × SshForwardingConfig}
    (hresult : result ≠ .ok)
    (hok : (if c then (result, config) else rest) = (.ok, config')) :
    ¬ c ∧ rest = (.ok, config') := by
  by_cases hc : c
  · rw [if_pos hc] at hok
    exact absurd (Prod.mk.inj hok).1 hresult
  · rw [if_neg hc] at hok
    exact ⟨hc, hok⟩

theorem normal_of_accepted (h : Rfc4291 inetPton)
    {config config' : SshForwardingConfig}
    (hok : validateAndNormalize inetPton config = (.ok, config')) :
    Normal inetPton config'
      ∧ config'.allowPublicBind = config.allowPublicBind := by
  unfold validateAndNormalize at hok
  dsimp only at hok
  obtain ⟨hid, hok⟩ := passed (by decide) hok
  obtain ⟨hmode, hok⟩ := passed (by decide) hok
  split at hok
  · cases hok
  · rename_i bindHost hbind
    obtain ⟨hpublic, hok⟩ := passed (by decide) hok
    obtain ⟨hport, hok⟩ := passed (by decide) hok
    obtain ⟨hrange, hok⟩ := passed (by decide) hok
    obtain ⟨hconnections, hok⟩ := passed (by decide) hok
    have hversion : (if config.schemaVersion = 0 then 1
        else config.schemaVersion) ≠ 0 := by
      split <;> omega
    have hmin : (if config.minBindPort = 0 then 1
        else config.minBindPort) ≠ 0 := by
      split <;> omega
    have hmax : (if config.maxBindPort = 0 then 65535
        else config.maxBindPort) ≠ 0 := by
      split <;> omega
    rw [not_or, not_lt] at hid hconnections
    rw [not_or, not_or, not_lt, not_lt, not_lt] at hrange
    rw [Bool.not_eq_true', Bool.not_eq_false] at hmode hport
    have hloop : config.allowPublicBind = true
        ∨ isLoopbackHost inetPton bindHost = true ∧ LoopbackBind bindHost := by
      rw [not_and_or, Bool.not_eq_true', Bool.not_eq_false,
        Bool.not_eq_true', Bool.not_eq_false] at hpublic
      exact hpublic.imp_right fun hl => ⟨hl, loopback_spelling h hbind hl⟩
    have hkept := normalizeBindHost_again h hbind
    have hrange' := And.intro hmin (And.intro hmax hrange.2)
    split at hok
    · rename_i hdynamic
      obtain ⟨htarget, hok⟩ := passed (by decide) hok
      rw [not_or, not_not, not_not] at htarget
      obtain rfl := (Prod.mk.inj hok).2
      refine ⟨⟨hversion, ⟨trim_trim _, hid⟩, hmode, hkept, hloop, hport,
        hrange', hconnections, trim_trim _, ?_⟩, rfl⟩
      exact .inl ⟨hdynamic, htarget⟩
    · rename_i hdynamic
      split at hok
      · cases hok
      · rename_i targetHost htarget
        obtain ⟨hport', hok⟩ := passed (by decide) hok
        rw [Bool.not_eq_true', Bool.not_eq_false] at hport'
        obtain rfl := (Prod.mk.inj hok).2
        obtain ⟨htrim, hagain⟩ := normalizeTargetHost_again h htarget
        refine ⟨⟨hversion, ⟨trim_trim _, hid⟩, hmode, hkept, hloop, hport,
          hrange', hconnections, htrim, ?_⟩, rfl⟩
        exact .inr ⟨hdynamic, hagain, hport'⟩

/-- A normal profile is accepted, and nothing in it is changed. -/
theorem Normal.accepted {config : SshForwardingConfig}
    (hn : Normal inetPton config) :
    validateAndNormalize inetPton config = (.ok, config) := by
  obtain ⟨hid, hidNe, hidLen⟩ := hn.id
  obtain ⟨hbind, hbindNe, hhost⟩ := hn.bind
  obtain ⟨hmin, hmax, hlo, hhi⟩ := hn.range
  obtain ⟨htrim, htarget⟩ := hn.target
  have hpublic := hn.loopback.imp_right And.left
  unfold validateAndNormalize
  simp only [hid, hbind, htrim, hhost, if_neg hn.version, if_neg hbindNe,
    if_neg hmin, if_neg hmax]
  refine (if_neg ?_).trans ((if_neg ?_).trans ((if_neg ?_).trans
    ((if_neg ?_).trans ((if_neg ?_).trans ((if_neg ?_).trans ?_)))))
  · exact not_or.mpr ⟨hidNe, by omega⟩
  · simp [hn.mode]
  · rcases hpublic with hpublic | hpublic <;> simp [hpublic]
  · simp [hn.port]
  · omega
  · have hconnections := hn.connections
    omega
  · rcases htarget with ⟨hmode, hnil, hzero⟩ | ⟨hmode, hkept, hport⟩
    · rw [if_pos hmode, if_neg (by simp [hnil, hzero])]
    · rw [if_neg hmode, hkept]
      exact if_neg (by simp [hport])

/-- Normalising a profile is done once: what is accepted is accepted as
it stands, and a listener that is not public is bound to the loopback. -/
theorem forwarding_profile_normal (h : Rfc4291 inetPton)
    (config config' : SshForwardingConfig)
    (hok : validateAndNormalize inetPton config = (.ok, config')) :
    validateAndNormalize inetPton config' = (.ok, config')
      ∧ (config.allowPublicBind = false → LoopbackBind config'.bindHost) := by
  obtain ⟨hnormal, hpublic⟩ := normal_of_accepted h hok
  refine ⟨hnormal.accepted, fun hclosed => ?_⟩
  rcases hnormal.loopback with hopen | hloop
  · rw [hpublic, hclosed] at hopen
    cases hopen
  · exact hloop.2

end Profiles

/-- A bracketed address with spaces, and a name with a dot behind it. -/
theorem forwarding_profile_normal_bracketed :
    let config : SshForwardingConfig := {
      id := codes " web "
      bindHost := codes " [0:0:0::1] "
      bindPort := 8080
      targetHost := codes "Db.Example."
      targetPort := 80 }
    let config' := (validateAndNormalize readIpv6 config).2
    validateAndNormalize readIpv6 config = (.ok, config')
      ∧ config'.bindHost = codes "::1"
      ∧ validateAndNormalize readIpv6 config' = (.ok, config')
      ∧ LoopbackBind config'.bindHost := by
  intro config config'
  have hok : validateAndNormalize readIpv6 config = (.ok, config') := by
    decide
  have hnormal := forwarding_profile_normal readIpv6_rfc4291 config config' hok
  exact ⟨hok, by decide, hnormal.1, hnormal.2 rfl⟩

end RemoteDesk.Ssh.Forwarding
