
namespace DocSite.Text

/-- The entity of a character with a meaning in HTML; any other character stands for itself. -/
def escapeChar : Char → List Char
  | '&' => "&amp;".toList
  | '<' => "&lt;".toList
  | '>' => "&gt;".toList
  | '"' => "&quot;".toList
  | '\'' => "&#x27;".toList
  | c => [c]

def escapeHtml (s : String) : String := String.ofList (s.toList.flatMap escapeChar)

/-- Escaping works on each character alone, so it respects concatenation. -/
theorem escapeHtml_append (a b : String) : escapeHtml (a ++ b) = escapeHtml a ++ escapeHtml b := by
  simp [escapeHtml, String.ofList_append]

end DocSite.Text
