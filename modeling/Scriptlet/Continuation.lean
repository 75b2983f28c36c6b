/-!
# Line continuation

A text typed into the shell goes on with the next line while it has more opening than closing
parentheses, or more opening than closing braces. Brackets in strings and comments do not count:
strings are emptied first, wherever their quotes are, and then each line is cut at two slashes.
-/

namespace Scriptlet.Continuation

/--
Empties the strings of a text. In a string, the characters since its quote are kept in reverse;
they stay as they are if no closing quote follows.
-/
def emptyStrings : Option (List Char) → List Char → List Char
  | none, [] => []
  | none, character :: rest =>
    if character = '"' then emptyStrings (some []) rest
    else character :: emptyStrings none rest
  | some begun, [] => '"' :: begun.reverse
  | some begun, character :: rest =>
    if character = '"' then '"' :: '"' :: emptyStrings none rest
    else emptyStrings (some (character :: begun)) rest

/-- Cuts each line of a text at the first two slashes in it. -/
def dropComments : (inComment : Bool) → List Char → List Char
  | _, [] => []
  | _, '\n' :: rest => '\n' :: dropComments false rest
  | false, '/' :: '/' :: rest => dropComments true rest
  | false, character :: rest => character :: dropComments false rest
  | true, _ :: rest => dropComments true rest

/-- The text without what stands in strings and comments. -/
def code (text : List Char) : List Char :=
  dropComments false (emptyStrings none text)

/-- Whether a text goes on with the next line. -/
def isNeeded (text : String) : Bool :=
  let code := code text.toList
  code.count '(' > code.count ')' || code.count '{' > code.count '}'

/-- The text so far with one more line. -/
def join (pending line : String) : String :=
  pending ++ line ++ "\n"

end Scriptlet.Continuation
