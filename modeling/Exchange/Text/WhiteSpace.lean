/-!
# Unicode white space

The characters with the Unicode `White_Space` property: the controls from tab to carriage return,
the blank, next line, no-break space, ogham space mark, the spaces from en quad to hair space,
the line and paragraph separators, narrow no-break space, medium mathematical space and
ideographic space. Zero-width space and the Mongolian vowel separator are not among them.

Both the CSV reader and the timestamp reader trim by this class. It contains core's
`Char.isWhitespace`, which knows ASCII only (`isWhiteSpace_of_isWhitespace`).
-/

namespace Exchange

/-- Whether a character has the Unicode `White_Space` property. -/
def isWhiteSpace (c : Char) : Bool :=
  let n := c.toNat
  (9 ≤ n && n ≤ 13) || n = 32 || n = 0x85 || n = 0xA0 || n = 0x1680 ||
  (0x2000 ≤ n && n ≤ 0x200A) || n = 0x2028 || n = 0x2029 || n = 0x202F || n = 0x205F || n = 0x3000

/-- Drops white space at both ends. -/
def trimWhiteSpace (cs : List Char) : List Char :=
  ((cs.dropWhile isWhiteSpace).reverse.dropWhile isWhiteSpace).reverse

theorem isWhiteSpace_of_isWhitespace {c : Char} (h : c.isWhitespace = true) :
    isWhiteSpace c = true := by
  simp only [Char.isWhitespace, Bool.or_eq_true, decide_eq_true_eq] at h
  rcases h with ((h | h) | h) | h <;> subst h <;> decide

end Exchange
