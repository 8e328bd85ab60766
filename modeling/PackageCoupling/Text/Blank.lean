import PackageCoupling.Text.Range

namespace PackageCoupling.Text

-- The ranges of the Unicode property White_Space.
def blankRanges : List Range :=
  [⟨0x09, 0x0d⟩, ⟨0x20, 0x20⟩, ⟨0x85, 0x85⟩, ⟨0xa0, 0xa0⟩, ⟨0x1680, 0x1680⟩, ⟨0x2000, 0x200a⟩,
  ⟨0x2028, 0x2029⟩, ⟨0x202f, 0x202f⟩, ⟨0x205f, 0x205f⟩, ⟨0x3000, 0x3000⟩]

def isBlankChar (c : Char) : Bool :=
  Range.anyContains blankRanges c

-- Text is blank if nothing would be left of it between its outer blanks.
def isBlank (s : String) : Bool :=
  s.toList.all isBlankChar

end PackageCoupling.Text
