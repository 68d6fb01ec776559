import Chunkwise.Text.Category

/-! Which characters can be shown as they are, and how many columns a character takes on a line
of text. A character with no glyph of its own, or one that would attach to its neighbour, is
written as an escape. -/

namespace Chunkwise.Text

/-- Letters that are blank: the fillers of the Hangul scripts. -/
def fillers : Intervals := [(0x115f, 0x1160), (0x3164, 0x3164), (0xffa0, 0xffa0)]

/-- Controls, format characters, private and unassigned code points, every
separator but the plain space, and the fillers. -/
def invisible : Intervals :=
  .union (.diff (Category.second fun k => k.isOther || k.isSeparator) (.single 0x20)) fillers

/-- What attaches to its neighbour without being a nonspacing or enclosing mark. -/
def otherExtenders : Intervals :=
  .ofRows
    ["9be 9d7 b3e b57 bbe bd7 cc0 cc2 cc7-cc8 cca-ccb cd5-cd6 d3e d57 dcf ddf 1715 1734 1b35 1b3b",
     "1b3d 1b43-1b44 1baa 1bf2-1bf3 200c 302e-302f a953 a9c0 ff9e-ff9f 111c0 11235 1133e 1134d",
     "11357 113b8 113c2 113c5 113c7-113c9 113cf 114b0 114bd 115af 116b6 11930 1193d 11f41",
     "16ff0-16ff1 1d165-1d166 1d16d-1d172 e0020-e007f"]

/-- The characters that attach to the one before them. -/
def extenders : Intervals :=
  .union (Category.second fun k => k == .nonspacingMark || k == .enclosingMark) otherExtenders

/-- The halfwidth sound marks attach to their neighbour but have a place of their
own, so they can be shown. -/
def soundMarks : Intervals := [(0xff9e, 0xff9f)]

def isVisible (c : Char) : Bool :=
  !invisible.has c && (!extenders.has c || soundMarks.has c)

/-! ## Columns -/

/-- What may be ignored in display: joiners, fillers, selectors, tags and the
like. -/
def ignorable : Intervals :=
  .ofRows
    ["ad 34f 61c 115f-1160 17b4-17b5 180b-180f 200b-200f 202a-202e 2060-206f 3164 fe00-fe0f feff",
     "ffa0 fff0-fff8 1bca0-1bca3 1d173-1d17a e0000-e0fff"]

/-- The vowels and final consonants that complete a Hangul syllable. -/
def syllableTails : Intervals := [(0x1160, 0x11ff), (0xd7b0, 0xd7c6), (0xd7cb, 0xd7fb)]

/-- Signs that are drawn over or around the characters next to them. -/
def enclosingSigns : Intervals :=
  .ofRows ["605 70f 890-891 8e2 a8fa"]

/-- The characters that take no column of their own. The filler that opens a
syllable does take room. -/
def zeroWidth : Intervals :=
  .diff (.ofList (ignorable ++ extenders ++ syllableTails ++ enclosingSigns)) (.single 0x115f)

/-- The columns of a character, if it is not a wide one. -/
def columns (c : Char) : Nat := if zeroWidth.has c then 0 else 1

end Chunkwise.Text
