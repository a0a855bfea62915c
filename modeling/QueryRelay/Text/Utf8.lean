/-!
# Texts as bytes

The UTF-8 form of a text as a list of bytes, and the text of such a list if it is well formed.
Main statement: a text is read back from its bytes.
-/

namespace QueryRelay.Text

/-- The bytes of a text. -/
def utf8 (s : String) : List UInt8 := s.toUTF8.data.toList

/-- The text of well-formed bytes. -/
def ofUtf8? (bytes : List UInt8) : Option String := String.fromUTF8? ⟨bytes.toArray⟩

/-- A text is read back from its bytes. -/
theorem ofUtf8?_utf8 (s : String) : ofUtf8? (utf8 s) = some s := by
  have h : (⟨(utf8 s).toArray⟩ : ByteArray) = s.toUTF8 := by simp [utf8]
  rw [ofUtf8?, h]
  simp [String.fromUTF8?, String.fromUTF8, String.toUTF8, s.isValidUTF8]

end QueryRelay.Text
