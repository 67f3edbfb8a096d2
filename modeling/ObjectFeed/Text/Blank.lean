/-
  The blanks that may stand between the parts of a feed.

  * `Text.isBlank`: the six ASCII white space characters, vertical tab and form feed among them;
  * `Text.isJsonBlank`: the four of them that JSON allows between its tokens.
-/

namespace ObjectFeed.Text

/-- Space, tab, line feed, carriage return, vertical tab and form feed. -/
def isBlank (c : Char) : Bool :=
  c = ' ' || c = '\t' || c = '\n' || c = '\r' || c = '\x0b' || c = '\x0c'

/-- Space, tab, line feed and carriage return. -/
def isJsonBlank (c : Char) : Bool :=
  c = ' ' || c = '\t' || c = '\n' || c = '\r'

theorem isBlank_of_isJsonBlank {c : Char} (h : isJsonBlank c = true) : isBlank c = true := by
  simp only [isJsonBlank, isBlank, Bool.or_eq_true] at *
  exact Or.inl (Or.inl h)

end ObjectFeed.Text
