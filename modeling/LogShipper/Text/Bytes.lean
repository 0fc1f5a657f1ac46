/-!
# Bytes and UTF-8

A payload is a list of bytes. `utf8` writes a text as UTF-8 and `ofUtf8?` reads it back, refusing
what is not UTF-8.

Results:
* `ofUtf8?_utf8`: what `utf8` writes, `ofUtf8?` reads.
-/

namespace LogShipper

/-- Bytes of any content. -/
abbrev Bytes := List UInt8

namespace Text

/-- The UTF-8 bytes of a text. -/
def utf8 (s : String) : Bytes := s.toByteArray.data.toList

/-- The text whose UTF-8 form these bytes are, if there is one. -/
def ofUtf8? (bs : Bytes) : Option String := String.fromUTF8? ⟨bs.toArray⟩

/-- The UTF-8 bytes of one character. -/
def utf8Char (c : Char) : Bytes := utf8 (String.singleton c)

theorem ofUtf8?_utf8 (s : String) : ofUtf8? (utf8 s) = some s := by
  have e : (⟨(utf8 s).toArray⟩ : ByteArray) = s.toByteArray := by
    rw [utf8, Array.toArray_toList]
  rw [ofUtf8?, e, String.fromUTF8?, dif_pos s.isValidUTF8]
  rfl

end Text

end LogShipper
