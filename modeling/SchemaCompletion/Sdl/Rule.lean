import SchemaCompletion.Sdl.TokenStream

/-!
# Rules of the grammar

A rule reads from the front of the tokens: it gives a value and the tokens that are left, or a
syntax error. A rule looks at one token, at times at two; looking at a place that cannot be read is
an error. Taking a token looks at the one behind it, so that a lexical error there comes before any
complaint about the token that was taken.

* `Rule` — the rules;
* `peek`, `peekSecond`, `advance` — looking at tokens and taking one;
* `expectMark`, `expectName`, `expectWord` — taking a token that has to be there;
* `skipMark`, `skipWord` — taking a token if it is there;
* `repeatUntil`, `separatedBy` — sequences of items.
-/

namespace SchemaCompletion.Sdl

abbrev Rule := StateT TokenStream (Except SyntaxError)

namespace Rule

/-! ## Single tokens -/

/-- The token at the front, or none at the end of the text. -/
def peek : Rule (Option Token) := fun s =>
  match s with
  | .ended => .ok (none, s)
  | .broken e => .error (.lexical e)
  | .token t _ => .ok (some t, s)

/-- The token after the one at the front. -/
def peekSecond : Rule (Option Token) := fun s =>
  match s with
  | .ended => .ok (none, s)
  | .broken e => .error (.lexical e)
  | .token _ .ended => .ok (none, s)
  | .token _ (.broken e) => .error (.lexical e)
  | .token _ (.token t _) => .ok (some t, s)

/-- Takes the token at the front, if the place behind it can be read; at the end of the text there
is none to take. -/
def advance : Rule Unit := fun s =>
  match s with
  | .token _ (.broken e) => .error (.lexical e)
  | .token _ rest => .ok ((), rest)
  | .ended => .ok ((), .ended)
  | .broken e => .error (.lexical e)

/-- The token at the front is one that the grammar has no use for. -/
def unexpected {α : Type} : Rule α := do throw (.unexpected (← peek))

def atEnd : Rule Bool := do return (← peek).isNone

def isMark (p : Punctuator) : Rule Bool := do return (← peek) == some (.punctuator p)

def isName : Rule Bool := do
  match ← peek with
  | some (.name _) => return true
  | _ => return false

/-- Takes the mark if it stands at the front. -/
def skipMark (p : Punctuator) : Rule Bool := do
  let found ← isMark p
  if found then advance
  return found

def skipWord (word : String) : Rule Bool := do
  let found := (← peek) == some (.name word)
  if found then advance
  return found

def expectMark (p : Punctuator) : Rule Unit := do
  match ← peek with
  | some (.punctuator q) =>
    if q = p then advance else throw (.expected (.mark p) (some (.punctuator q)))
  | found => throw (.expected (.mark p) found)

def expectWord (word : String) : Rule Unit := do
  match ← peek with
  | some (.name text) =>
    if text = word then advance else throw (.expected (.keyword word) (some (.name text)))
  | found => throw (.expected (.keyword word) found)

def expectName : Rule String := do
  match ← peek with
  | some (.name text) =>
    advance
    return text
  | found => throw (.expected .name found)

/-! ## Sequences -/

/-- Items, until a rule for the end of the sequence says that it is reached. An item that takes no
token ends the sequence, too, so that every sequence is finite. -/
def repeatUntil {α : Type} (stop : Rule Bool) (item : Rule α) : Rule (List α) := fun s =>
  match stop s with
  | .error e => .error e
  | .ok (true, s₁) => .ok ([], s₁)
  | .ok (false, s₁) =>
    match item s₁ with
    | .error e => .error e
    | .ok (a, s₂) =>
      -- checked here, so that no rule has to be known to take a token
      if s₂.length < s.length then
        match repeatUntil stop item s₂ with
        | .error e => .error e
        | .ok (as, s₃) => .ok (a :: as, s₃)
      else .ok ([a], s₂)
termination_by s => s.length

/-- One item or more, until the end of the sequence. -/
def someUntil {α : Type} (stop : Rule Bool) (item : Rule α) : Rule (List α) := do
  let first ← item
  return first :: (← repeatUntil stop item)

/-- Any number of items between two marks. -/
def manyBetween {α : Type} (opening closing : Punctuator) (item : Rule α) : Rule (List α) := do
  expectMark opening
  repeatUntil (skipMark closing) item

/-- One item or more between two marks. -/
def someBetween {α : Type} (opening closing : Punctuator) (item : Rule α) : Rule (List α) := do
  expectMark opening
  someUntil (skipMark closing) item

/-- One item or more between two marks, or nothing. -/
def optionalBetween {α : Type} (opening closing : Punctuator) (item : Rule α) :
    Rule (List α) := do
  if ← skipMark opening then someUntil (skipMark closing) item else return []

/-- One item or more with a mark between them; the mark may also stand before the first. -/
def separatedBy {α : Type} (mark : Punctuator) (item : Rule α) : Rule (List α) := do
  let _ ← skipMark mark
  let first ← item
  return first :: (← repeatUntil (do return !(← isMark mark)) (do advance; item))

end Rule

end SchemaCompletion.Sdl
