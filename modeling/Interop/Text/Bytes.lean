/-!
This module contains the bytes of texts.
-/

namespace Interop

abbrev Bytes := List UInt8

def bytesOf (s : String) : Bytes :=
  s.toUTF8.data.toList

theorem bytesOf_eq_nil {s : String} : bytesOf s = [] ↔ s = "" := by
  rw [← String.utf8ByteSize_eq_zero_iff, List.eq_nil_iff_length_eq_zero]
  rfl

end Interop
