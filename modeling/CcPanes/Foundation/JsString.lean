/-!
# Strings as sequences of UTF-16 code units
-/

abbrev JsString := List UInt16

instance : LawfulBEq JsString := inferInstance

namespace JsString

def ofChar (c : Char) : JsString :=
  if c.toNat < 0x10000 then [c.toNat.toUInt16]
  else
    [(0xd800 + (c.toNat - 0x10000) / 0x400).toUInt16,
      (0xdc00 + (c.toNat - 0x10000) % 0x400).toUInt16]

def ofString (s : String) : JsString := s.toList.flatMap ofChar

end JsString
