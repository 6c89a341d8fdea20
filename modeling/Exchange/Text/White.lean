/-!
# White space

White space in the Unicode sense (the White_Space property): the ASCII
blanks and line breaks (tab, line feed, vertical tab, form feed, carriage
return, space), U+0085, U+00A0 and the space and line separators U+1680,
U+2000 to U+200A, U+2028, U+2029, U+202F, U+205F and U+3000.
-/

namespace Exchange.Text

/-- Whether a character is Unicode white space. -/
def isWhite (c : Char) : Bool :=
  c = ' ' || ('\t' ≤ c && c ≤ '\r') || c.toNat = 0x85 || c.toNat = 0xA0 || c.toNat = 0x1680 ||
    (0x2000 ≤ c.toNat && c.toNat ≤ 0x200A) || c.toNat = 0x2028 || c.toNat = 0x2029 ||
    c.toNat = 0x202F || c.toNat = 0x205F || c.toNat = 0x3000

/-- A text without the white space at its two ends. -/
def trimWhite (s : String) : String :=
  String.ofList ((s.toList.dropWhile isWhite).reverse.dropWhile isWhite).reverse

end Exchange.Text
