import Mathlib

namespace Pyleans.Library.Utf8

def encode (text : String) : List UInt8 := text.toByteArray.data.toList

def decode (bytes : List UInt8) : Option String := String.fromUTF8? ⟨bytes.toArray⟩

theorem decode_eq_some {bytes : List UInt8} {text : String} :
    decode bytes = some text ↔ encode text = bytes := by
  unfold decode String.fromUTF8? encode
  constructor
  · intro h
    split_ifs at h with hvalid
    obtain rfl := Option.some.inj h
    rfl
  · rintro rfl
    exact dif_pos text.isValidUTF8

theorem decode_encode (text : String) : decode (encode text) = some text := decode_eq_some.mpr rfl

theorem encode_append (head tail : String) :
    encode (head ++ tail) = encode head ++ encode tail := by
  unfold encode
  rw [String.toByteArray_append, ByteArray.data_append, Array.toList_append]

theorem length_encode (text : String) : (encode text).length = text.utf8ByteSize := rfl

theorem length_encode_ofList (chars : List Char) : (encode (String.ofList chars)).length =
    (chars.map Char.utf8Size).sum := by
  induction chars with
  | nil => rfl
  | cons c chars ih =>
    rw [← List.singleton_append, String.ofList_append, encode_append, List.length_append, ih,
      List.map_append, List.sum_append]
    congr 1
    exact String.utf8ByteSize_singleton

/-- No character's bytes begin another's, so bytes that begin a text's and are one's are of its
first characters. -/
theorem toList_isPrefix_of_encode {head text : String} (h : encode head <+: encode text) :
    head.toList <+: text.toList := by
  obtain ⟨rest, hrest⟩ := h
  apply List.isPrefix_of_utf8Encode_append_eq_utf8Encode ⟨rest.toArray⟩
  rw [String.utf8Encode_toList, String.utf8Encode_toList]
  apply ByteArray.ext
  apply Array.toList_inj.mp
  rw [ByteArray.data_append, Array.toList_append]
  exact hrest

/-- Some first characters of the text take up `n` bytes. -/
def EndsCharacterAt (text : String) (n : ℕ) : Prop :=
  ∃ head, head <+: text.toList ∧ (encode (String.ofList head)).length = n

theorem exists_decode_take {text : String} {n : ℕ} :
    (∃ cut, decode ((encode text).take n) = some cut) ↔
    (encode text).length ≤ n ∨ EndsCharacterAt text n := by
  constructor
  · rintro ⟨cut, hcut⟩
    have hbytes := decode_eq_some.mp hcut
    by_cases hlong : n < (encode text).length
    · right
      refine ⟨cut.toList, toList_isPrefix_of_encode (hbytes ▸ List.take_prefix n _), ?_⟩
      rw [String.ofList_toList, hbytes, List.length_take]
      omega
    · left
      omega
  · rintro (hshort | ⟨head, ⟨tail, htext⟩, rfl⟩)
    · exact ⟨text, by rw [List.take_of_length_le hshort, decode_encode]⟩
    · refine ⟨String.ofList head, ?_⟩
      rw [← String.ofList_toList (s := text), ← htext, String.ofList_append, encode_append,
        List.take_left, decode_encode]

theorem isPrefix_of_decode_take {text cut : String} {n : ℕ}
    (h : decode ((encode text).take n) = some cut) :
    cut.toList <+: text.toList :=
  toList_isPrefix_of_encode (decode_eq_some.mp h ▸ List.take_prefix n _)

end Pyleans.Library.Utf8
