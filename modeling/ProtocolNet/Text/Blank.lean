import ProtocolNet.Text.Letter

namespace ProtocolNet

namespace Text

-- Zero-width characters are no white space.
def isBlank (c : Char) : Bool :=
  let n := c.toNat
  (0x09 ≤ n && n ≤ 0x0D) || (0x1C ≤ n && n ≤ 0x20) || n == 0x85 || n == 0xA0 || n == 0x1680 ||
  (0x2000 ≤ n && n ≤ 0x200A) || n == 0x2028 || n == 0x2029 || n == 0x202F || n == 0x205F ||
  n == 0x3000

def trimStart (s : List Char) : List Char := s.dropWhile isBlank

def trimEnd (s : List Char) : List Char := (s.reverse.dropWhile isBlank).reverse

def trim (s : List Char) : List Char := trimEnd (trimStart s)

def trimmed (s : String) : String := .ofList (trim s.toList)

theorem trimStart_of_not_blank {c : Char} {s : List Char} (solid : isBlank c = false) :
    trimStart (c :: s) = c :: s := by
  simp [trimStart,solid]

end Text

def Letter.isBlank : Letter → Bool
  | .char c => Text.isBlank c
  | .lone _ => false

namespace Str

def trimEnd (s : Str) : Str := (s.reverse.dropWhile Letter.isBlank).reverse

def trim (s : Str) : Str := trimEnd (s.dropWhile Letter.isBlank)

end Str

end ProtocolNet
