/-
The formats of the RDP clipboard together (rdp_clipboard_content.cpp,
rdp_clipboard_codec.h): what the writer of a format accepts, the reader
of that format gives back.
-/
import RemoteDesk.Clipboard.DibImage
import RemoteDesk.Clipboard.HtmlFormat

namespace RemoteDesk.Clipboard

/-- Text, HTML and images survive the trip over the wire, and a text
taken from the wire can be put on it again, up to its padding. -/
theorem codecs_round_trip :
    (∀ text bytes, encode text = some bytes → decode bytes = some text)
    ∧ (∀ data text, decode data = some text →
        ∃ bytes pad, encode text = some bytes
          ∧ data = bytes ++ List.replicate (2 * pad) 0)
    ∧ (∀ fragment bytes, encodeHtml fragment = some bytes →
        decodeHtml bytes = some fragment)
    ∧ ∀ rgba width height bytes, encodeDibV5 rgba width height = some bytes →
        ∀ content, decodeDibV5 bytes content
          = some { content with
            rgbaStraight := rgba, width := width, height := height } := by
  refine ⟨?_, ?_, ?_, ?_⟩
  · intro text bytes h
    exact decode_encode h
  · intro data text h
    exact encode_decode h
  · intro fragment bytes h
    exact decodeHtml_encodeHtml h
  · intro rgba width height bytes h content
    exact decodeDibV5_encodeDibV5 h content

/-- A letter, a padded pair of surrogates, a fragment and a pixel. -/
theorem codecs_round_trip_small :
    decode [97, 0, 0, 0] = some [97]
    ∧ (∃ bytes pad, encode [0xF0, 0x9F, 0x98, 0x80] = some bytes
      ∧ [0x3D, 0xD8, 0x00, 0xDE, 0, 0, 0, 0]
        = bytes ++ List.replicate (2 * pad) 0)
    ∧ (∃ bytes, encodeHtml [0x62] = some bytes
      ∧ decodeHtml bytes = some [0x62])
    ∧ ∃ bytes, encodeDibV5 [1, 2, 3, 4] 1 1 = some bytes
      ∧ decodeDibV5 bytes {}
        = some { rgbaStraight := [1, 2, 3, 4], width := 1, height := 1 } := by
  obtain ⟨htext, hwire, hhtml, hdib⟩ := codecs_round_trip
  refine ⟨?_, ?_, ?_, ?_⟩
  · exact htext [97] _ (by decide +kernel)
  · exact hwire _ _ (by decide +kernel)
  · exact ⟨_, rfl, hhtml _ _ rfl⟩
  · exact ⟨_, rfl, hdib _ _ _ _ rfl {}⟩

end RemoteDesk.Clipboard
