/-
# Faults in words

The sentence for each fault of a source text, alone and with the place in front of it.
-/
import CurryLisp.Syntax.Token
import CurryLisp.Text.Quoted

namespace CurryLisp

/-- The fault in words, without its place. -/
def SyntaxDetail.text : SyntaxDetail → String
  | unterminatedString => "unterminated string literal"
  | unexpectedChar c => "unexpected character " ++ Text.quoteChar c
  | strayCloser b => "unexpected '" ++ String.singleton b.closeChar ++ "'"
  | unclosed b => "unmatched '" ++ String.singleton b.openChar ++ "'"

/-- The fault in words, after the name of the source, the line and the column. -/
def SyntaxFault.message (source : String) (f : SyntaxFault) : String :=
  s!"{source}:{f.position.line}:{f.position.column}: {f.detail.text}"

end CurryLisp
