/-!
# Blank characters and trimming

The Unicode property `White_Space` holds of twenty-five code points.  Trimming removes them from
the two ends of a text and from nowhere else.
-/

namespace LayeredEnv.Text

/-- The Unicode property `White_Space`. -/
def isBlank (c : Char) : Bool :=
  let n := c.toNat
  (0x9 ≤ n && n ≤ 0xD) || n == 0x20 || n == 0x85 || n == 0xA0 || n == 0x1680 ||
    (0x2000 ≤ n && n ≤ 0x200A) || n == 0x2028 || n == 0x2029 || n == 0x202F || n == 0x205F ||
    n == 0x3000

/-- The text without its leading blanks. -/
def trimStart (s : List Char) : List Char :=
  s.dropWhile isBlank

/-- The text without its trailing blanks. -/
def trimEnd (s : List Char) : List Char :=
  (s.reverse.dropWhile isBlank).reverse

/-- The text without the blanks at its two ends. -/
def trim (s : List Char) : List Char :=
  trimEnd (trimStart s)

@[simp] theorem isBlank_carriageReturn : isBlank '\r' = true := by decide

end LayeredEnv.Text
