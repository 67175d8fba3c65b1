import Payroll.Text.Integer
/-!
Which texts are regular expressions. Only the question is answered here: whether groups and classes
are closed, whether what is repeated is there, and whether what is escaped may be. Boundaries of
words, references back and looking around are not part of the language, and a count of repetitions is
not either, since the texts come without closing braces.
-/

namespace Payroll.Text.Pattern

/-- What an escaped character, or a character on its own, stands for. -/
inductive Item where
  | one (c : Char)
  | many
  | place
deriving DecidableEq

/-- The character that a number of hexadecimal digits at the front name, and the rest. -/
def hexChar? (count : Nat) (cs : List Char) : Option (Item × List Char) := do
  let digits ← (cs.take count).mapM hexDigit?
  if digits.length ≠ count then none
  let n := digits.foldl (fun n d => n * 16 + d) 0
  if n.isValidChar then return (.one (Char.ofNat n), cs.drop count) else none

/-- What follows a backslash. -/
def escape? : List Char → Option (Item × List Char)
  | [] => none
  | 'x' :: cs => hexChar? 2 cs
  | 'u' :: cs => hexChar? 4 cs
  | 'U' :: cs => hexChar? 8 cs
  | 'p' :: c :: cs | 'P' :: c :: cs =>
    if ['c', 'l', 'm', 'n', 'p', 's', 'z'].contains c.toLower then some (.many, cs) else none
  | c :: cs =>
    if ['d', 's', 'w', 'D', 'S', 'W'].contains c then some (.many, cs)
    else if ['A', 'z'].contains c then some (.place, cs)
    else if ['a', 'f', 't', 'n', 'r', 'v'].contains c then some (.one (special c), cs)
    else if c.toNat < 0x80 && !c.isAlphanum && c != '<' && c != '>' then some (.one c, cs)
    else none
where
  /-- The control character that a letter stands for. -/
  special : Char → Char
    | 'a' => '\x07'
    | 'f' => '\x0C'
    | 't' => '\t'
    | 'n' => '\n'
    | 'r' => '\r'
    | _ => '\x0B'

/-- The names of the classes that stand in brackets of their own with colons. -/
def classNames : List String :=
  ["alnum", "alpha", "ascii", "blank", "cntrl", "digit", "graph", "lower", "print", "punct", "space",
   "upper", "word", "xdigit"]

/-- What follows a named class, whose bracket and colon are already taken off. -/
def afterClassName? (cs : List Char) : Option (List Char) :=
  let cs := match cs with
    | '^' :: rest => rest
    | cs => cs
  match cs.dropWhile (· != ':') with
  | ':' :: ']' :: rest =>
    if classNames.contains (String.ofList (cs.takeWhile (· != ':'))) then some rest else none
  | _ => none

/-- What is left of a class behind its opening bracket, a caret, and the hyphens or the closing
bracket that stand for themselves there. -/
def afterClassOpening (cs : List Char) : List Char :=
  let cs := match cs with
    | '^' :: rest => rest
    | cs => cs
  match cs with
  | ']' :: rest => rest
  | cs => cs.dropWhile (· == '-')

/-- An item of a class, and the rest. -/
def classItem? : List Char → Option (Item × List Char)
  | [] => none
  | '\\' :: cs =>
    match escape? cs with
    | some (.place, _) => none
    | r => r
  | c :: cs => some (.one c, cs)

/-- What follows a class whose opening bracket is already taken off, where `depth` more are open
around it. -/
def afterClass? : Nat → Nat → List Char → Option (List Char)
  | 0, _, _ => none
  | _ + 1, _, [] => none
  | _ + 1, 0, ']' :: cs => some cs
  | steps + 1, depth + 1, ']' :: cs => afterClass? steps depth cs
  | steps + 1, depth, '[' :: cs =>
    let named := match cs with
      | ':' :: rest => afterClassName? rest
      | _ => none
    match named with
    | some rest => afterClass? steps depth rest
    | none => afterClass? steps (depth + 1) (afterClassOpening cs)
  | steps + 1, depth, '&' :: '&' :: cs | steps + 1, depth, '-' :: '-' :: cs
  | steps + 1, depth, '~' :: '~' :: cs => afterClass? steps depth cs
  | steps + 1, depth, cs => do
    let (first, rest) ← classItem? cs
    match rest with
    | '-' :: ']' :: _ | '-' :: '-' :: _ => afterClass? steps depth rest
    | '-' :: rest =>
      let (last, rest) ← classItem? rest
      match first, last with
      | .one a, .one b => if a ≤ b then afterClass? steps depth rest else none
      | _, _ => none
    | rest => afterClass? steps depth rest

/-- What an opening parenthesis begins. -/
inductive Opening where
  | group (rest : List Char)
  | flags (rest : List Char)

/-- What follows a group's name and the bracket that closes it. -/
def afterName? (cs : List Char) : Option (List Char) :=
  let name := cs.takeWhile (· != '>')
  let isStart (c : Char) := c.isAlpha || c = '_'
  let isRest (c : Char) := c.isAlphanum || c = '_' || c = '.' || c = '[' || c = ']'
  match cs.drop name.length with
  | '>' :: rest => if name.head?.any isStart && name.all isRest then some rest else none
  | _ => none

/-- Reads what follows an opening parenthesis. -/
def opening? : List Char → Option Opening
  | '?' :: '=' :: _ | '?' :: '!' :: _ | '?' :: '<' :: '=' :: _ | '?' :: '<' :: '!' :: _ => none
  | '?' :: 'P' :: '<' :: cs | '?' :: '<' :: cs => (afterName? cs).map .group
  | '?' :: cs =>
    let isFlag (c : Char) := ['i', 'm', 's', 'U', 'u', 'R', 'x', '-'].contains c
    let flags := cs.takeWhile isFlag
    let sound := flags.count '-' ≤ 1 && flags.getLast? != some '-' &&
      (flags.filter (· != '-')).eraseDups.length = (flags.filter (· != '-')).length
    match cs.drop flags.length with
    | ':' :: rest => if sound then some (.group rest) else none
    | ')' :: rest => if sound && !flags.isEmpty then some (.flags rest) else none
    | _ => none
  | cs => some (.group cs)

/-- The rest of a pattern is sound, where `depth` groups are open and what stands before it can be
repeated or not. -/
def isSound : Nat → Nat → Bool → List Char → Bool
  | 0, _, _, _ => false
  | _ + 1, depth, _, [] => depth = 0
  | steps + 1, depth, _, '(' :: cs =>
    match opening? cs with
    | some (.group rest) => isSound steps (depth + 1) false rest
    | some (.flags rest) => isSound steps depth false rest
    | none => false
  | _ + 1, 0, _, ')' :: _ => false
  | steps + 1, depth + 1, _, ')' :: cs => isSound steps depth true cs
  | steps + 1, depth, _, '|' :: cs => isSound steps depth false cs
  | steps + 1, depth, _, '[' :: cs =>
    match afterClass? (steps + 1) 0 (afterClassOpening cs) with
    | some rest => isSound steps depth true rest
    | none => false
  | steps + 1, depth, _, '\\' :: cs =>
    match escape? cs with
    | some (_, rest) => isSound steps depth true rest
    | none => false
  | steps + 1, depth, repeatable, c :: cs =>
    if c = '*' || c = '+' || c = '?' then
      repeatable && isSound steps depth true (match cs with
        | '?' :: rest => rest
        | cs => cs)
    else if c = '\x7b' then false
    else isSound steps depth true cs

end Pattern

/-- The text is a regular expression. -/
def isPattern (s : String) : Bool :=
  Pattern.isSound (s.length + 1) 0 false s.toList

end Payroll.Text
