import Scriptlet.Diagnostic
import Scriptlet.Segment

/-!
# Scanning

`scan` turns a program text into tokens, the last of them marking the end of the text, and
collects what could not be read. Lines are counted from one and end at newline characters only.
-/

namespace Scriptlet

/-- What can be wrong with a piece of program text. -/
inductive ScanError.Cause where
  | unexpectedCharacter (character : Char)
  | unterminatedString
  deriving DecidableEq, Repr

/-- A piece of program text that is no token, and the line on which it ends. -/
structure ScanError where
  cause : ScanError.Cause
  line : Int
  deriving DecidableEq, Repr

namespace ScanError

/-- The message of a scanning error. -/
def Cause.message : Cause → String
  | unexpectedCharacter _ => "Unexpected character."
  | unterminatedString => "Unterminated string."

/-- The text that a scanning error blames. -/
def Cause.lexeme : Cause → String
  | unexpectedCharacter character => String.singleton character
  | unterminatedString => "\""

/-- The error as the user sees it. -/
def diagnostic (error : ScanError) : Diagnostic where
  line := some error.line
  message := error.cause.message
  lexeme := error.cause.lexeme

end ScanError

/-- The tokens of a text and the errors found in it, both in the order of the text. -/
structure Scanned where
  tokens : List Token
  errors : List ScanError

namespace Segment

/-- The token of a segment that ends on `line`, if it is one. -/
def token? (line : Int) : Segment → Option Token
  | token kind lexeme =>
    some {
      kind := kind
      lexeme := String.ofList lexeme
      literal := literal kind lexeme
      line := line }
  | _ => none

/-- The error in a segment that ends on `line`, if there is one. -/
def error? (line : Int) : Segment → Option ScanError
  | unexpected character => some ⟨.unexpectedCharacter character, line⟩
  | unterminated _ => some ⟨.unterminatedString, line⟩
  | _ => none

/-- Puts segments, each with the line it ends on, before those already found. -/
def numberOnto (found : List (Int × Segment)) : Int → List Segment → List (Int × Segment)
  | _, [] => found.reverse
  | line, segment :: rest =>
    let last := line + segment.newlines
    numberOnto ((last, segment) :: found) last rest

/-- Segments with the line that each ends on, when the first of them begins on `line`. -/
def numbered (line : Int) (segments : List Segment) : List (Int × Segment) :=
  numberOnto [] line segments

theorem numberOnto_eq (found : List (Int × Segment)) (line : Int) (segments : List Segment) :
    numberOnto found line segments = found.reverse ++ numbered line segments := by
  induction segments generalizing found line with
  | nil => simp [numbered, numberOnto]
  | cons segment rest ih =>
    simp only [numbered, numberOnto]
    rw [ih, ih [_]]
    simp

@[simp]
theorem numbered_nil (line : Int) : numbered line [] = [] := rfl

/-- A segment ends as many lines further down as it has newlines. -/
@[simp]
theorem numbered_cons (line : Int) (segment : Segment) (rest : List Segment) :
    numbered line (segment :: rest) =
      (line + segment.newlines, segment) :: numbered (line + segment.newlines) rest := by
  rw [numbered, numberOnto, numberOnto_eq]
  rfl

end Segment

/-- The line on which a text ends. -/
def lastLine (text : String) : Int :=
  1 + text.toList.count '\n'

/-- The tokens of a program text, and its scanning errors. -/
def scan (text : String) : Scanned :=
  let segments := Segment.numbered 1 (Segment.cut text.toList)
  { tokens :=
      segments.filterMap (fun (line, segment) => segment.token? line) ++
        [Token.endOfText (lastLine text)]
    errors := segments.filterMap fun (line, segment) => segment.error? line }

end Scriptlet
