import MessageBus.Text

/-!
# Blanks

The two sets of blanks that readers of settings and numbers skip: the code points with the Unicode
property `White_Space`, and those together with the four ASCII separators.
-/

namespace MessageBus.CodePoint

def isBlank (c : CodePoint) : Bool :=
  let n := c.val
  (9 ≤ n && n ≤ 13) || n == 0x20 || n == 0x85 || n == 0xA0 || n == 0x1680 ||
    (0x2000 ≤ n && n ≤ 0x200A) || n == 0x2028 || n == 0x2029 || n == 0x202F || n == 0x205F ||
    n == 0x3000

def isBlankOrSeparator (c : CodePoint) : Bool :=
  c.isBlank || (0x1C ≤ c.val && c.val ≤ 0x1F)

end MessageBus.CodePoint
