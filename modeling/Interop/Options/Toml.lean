import Interop.Options.Datum

/-!
This module contains the reading of the part of TOML that a configuration can use: keys whose values
are texts or lists of texts. Whatever else TOML can write has no place in a configuration, and a
text that holds it is refused.
-/

namespace Interop.Toml

inductive Token where
  | newline
  | equals
  | opening
  | closing
  | comma
  /-- A run of letters, digits, hyphens and underscores. -/
  | word (text : String)
  /-- A quoted text. It can be a key unless it may go over lines. -/
  | quoted (text : String) (block : Bool)
  deriving DecidableEq, Repr

namespace Token

def symbol? : Char → Option Token
  | '=' => some equals
  | '[' => some opening
  | ']' => some closing
  | ',' => some comma
  | _ => none

def key? : Token → Option String
  | word text | quoted text false => some text
  | _ => none

end Token

def isWordChar (c : Char) : Bool :=
  c.isAlphanum || c == '-' || c == '_'

/--
Whether a character may stand in comments and quoted texts.
-/
def isContent (c : Char) : Bool :=
  c == '\t' || (0x20 ≤ c.toNat && c.toNat ≠ 0x7f)

def isBlank (c : Char) : Bool :=
  c == ' ' || c == '\t'

/--
The length of the line end that a text begins with, which is 0 if it begins with something else.
-/
def lineEnd : List Char → Nat
  | '\n' :: _ => 1
  | '\r' :: '\n' :: _ => 2
  | _ => 0

/--
The number of blanks and characters of line ends that a text begins with.
-/
def gap : List Char → Nat
  | '\r' :: '\n' :: cs => gap cs + 2
  | c :: cs => if c = '\n' ∨ isBlank c then gap cs + 1 else 0
  | [] => 0

/--
The gap that a backslash at the end of a line removes.
-/
def continuation? (cs : List Char) : Option Nat :=
  if lineEnd (cs.dropWhile isBlank) = 0 then none else some (gap cs)

def hexDigit? (c : Char) : Option Nat :=
  if c.isDigit then some (c.toNat - '0'.toNat)
  else if 'a' ≤ c ∧ c ≤ 'f' then some (c.toNat - 'a'.toNat + 10)
  else if 'A' ≤ c ∧ c ≤ 'F' then some (c.toNat - 'A'.toNat + 10)
  else none

/--
The character whose number is written in the first `size` characters.
-/
def numbered? (size : Nat) (cs : List Char) : Option Char := do
  let digits ← (cs.take size).mapM hexDigit?
  let n := digits.foldl (fun n d => n * 16 + d) 0
  if digits.length = size ∧ n.isValidChar then some (Char.ofNat n) else none

/--
The character that an escape stands for and the number of characters that write it, without the
backslash.
-/
def escape? : List Char → Option (Char × Nat)
  | 'b' :: _ => some ('\x08', 1)
  | 't' :: _ => some ('\t', 1)
  | 'n' :: _ => some ('\n', 1)
  | 'f' :: _ => some ('\x0c', 1)
  | 'r' :: _ => some ('\r', 1)
  | '"' :: _ => some ('"', 1)
  | '\\' :: _ => some ('\\', 1)
  | 'u' :: cs => (numbered? 4 cs).map (·, 5)
  | 'U' :: cs => (numbered? 8 cs).map (·, 9)
  | _ => none

def doubleQuote : Char := '"'

def singleQuote : Char := '\x27'

/--
A quoted text behind its opening quotes, up to the closing ones, and what comes then. In a block the
closing quotes are three, and one or two more before them belong to the text. `read` is what was
read so far, the last character first.
-/
def quotedTail (quote : Char) (block : Bool) (read : List Char) :
    List Char → Option (String × List Char)
  | [] => none
  | c :: cs =>
    if c = quote then
      if block then
        let more := min 4 (cs.takeWhile (· == quote)).length
        if more < 2 then
          quotedTail quote block (List.replicate (more + 1) quote ++ read) (cs.drop more)
        else
          some (String.ofList (List.replicate (more - 2) quote ++ read).reverse, cs.drop more)
      else some (String.ofList read.reverse, cs)
    else if c = '\\' ∧ quote = doubleQuote then
      match if block then continuation? cs else none with
      | some n => quotedTail quote block read (cs.drop n)
      | none =>
        match escape? cs with
        | some (e, n) => quotedTail quote block (e :: read) (cs.drop n)
        | none => none
    else if lineEnd (c :: cs) ≠ 0 then
      if block then
        quotedTail quote block ('\n' :: read) (cs.drop (lineEnd (c :: cs) - 1))
      else none
    else if isContent c then quotedTail quote block (c :: read) cs
    else none
termination_by cs => cs.length

theorem length_of_quotedTail {quote : Char} {block : Bool} {read cs rest : List Char} {s : String}
    (h : quotedTail quote block read cs = some (s, rest)) : rest.length ≤ cs.length := by
  fun_induction quotedTail quote block read cs <;> grind

/--
The quoted text behind its first quote.
-/
def quoted (quote : Char) (cs : List Char) : Option (Token × List Char) :=
  if [quote, quote].isPrefixOf cs then
    let body := cs.drop 2
    (quotedTail quote true [] (body.drop (lineEnd body))).map fun (s, rest) =>
      (.quoted s true, rest)
  else (quotedTail quote false [] cs).map fun (s, rest) => (.quoted s false, rest)

theorem length_of_quoted {quote : Char} {cs rest : List Char} {t : Token}
    (h : quoted quote cs = some (t, rest)) : rest.length ≤ cs.length := by
  unfold quoted at h
  split at h
  all_goals
    obtain ⟨⟨s, r⟩, hr, he⟩ := Option.map_eq_some_iff.1 h
    have := length_of_quotedTail hr
    simp at he
    grind

/--
The tokens of a text, unless a character in it is out of place. Blanks and comments leave no token.
-/
def tokens : List Char → Option (List Token)
  | [] => some []
  | c :: cs =>
    if lineEnd (c :: cs) ≠ 0 then
      (tokens (cs.drop (lineEnd (c :: cs) - 1))).map (.newline :: ·)
    else if isBlank c then tokens cs
    else if c = '#' then tokens (cs.dropWhile isContent)
    else if isWordChar c then
      (tokens (cs.dropWhile isWordChar)).map
        (.word (String.ofList (c :: cs.takeWhile isWordChar)) :: ·)
    else if c = doubleQuote ∨ c = singleQuote then
      match _h : quoted c cs with
      | some (t, rest) => (tokens rest).map (t :: ·)
      | none => none
    else
      match Token.symbol? c with
      | some t => (tokens cs).map (t :: ·)
      | none => none
termination_by cs => cs.length
decreasing_by
  all_goals simp only [List.length_cons, List.length_drop]
  · omega
  · omega
  · exact Nat.lt_succ_of_le (List.dropWhile_sublist _).length_le
  · exact Nat.lt_succ_of_le (List.dropWhile_sublist _).length_le
  · exact Nat.lt_succ_of_le (length_of_quoted _h)
  · omega

/--
What may come next.
-/
inductive Place where
  /-- A line. -/
  | line
  /-- The end of a line. -/
  | lineEnd
  /-- The rest of a list, with a text first if one is due and with a comma otherwise. -/
  | list (key : String) (items : List Datum) (due : Bool)
  deriving Repr

/--
The entries that tokens write. A key stands once.
-/
def entries (read : List (String × Datum)) :
    Place → List Token → Option (List (String × Datum))
  | .line, [] | .lineEnd, [] => some read.reverse
  | .line, .newline :: ts | .lineEnd, .newline :: ts => entries read .line ts
  | .line, key :: .equals :: value :: ts =>
    match key.key?, value with
    | some key, .quoted s _ =>
      if read.any (·.1 = key) then none else entries ((key, .text s) :: read) .lineEnd ts
    | some key, .opening =>
      if read.any (·.1 = key) then none else entries read (.list key [] true) ts
    | _, _ => none
  | .list key items due, .newline :: ts => entries read (.list key items due) ts
  | .list key items _, .closing :: ts => entries ((key, .list items.reverse) :: read) .lineEnd ts
  | .list key items true, .quoted s _ :: ts => entries read (.list key (.text s :: items) false) ts
  | .list key items false, .comma :: ts => entries read (.list key items true) ts
  | _, _ => none

/--
The table that a text writes. A byte order mark may stand in front.
-/
def read (text : String) : Option Datum :=
  let cs := text.toList
  let cs := if cs.head? = some '\uFEFF' then cs.tail else cs
  ((tokens cs).bind (entries [] .line)).map .table

end Toml

def Options.ofToml (text : String) : Except String Options :=
  match Toml.read text with
  | some d => Options.ofDatum d
  | none => .error "expected keys with texts and lists of texts"

end Interop
