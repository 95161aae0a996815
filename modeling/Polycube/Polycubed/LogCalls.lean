import Polycube.Polycubed.DatapathLog

/-!
# Log calls in a source

A C source is a list of comments, literals, spliced lines and single characters of code.  Without
its comments it is read once more for the calls of `pcn_log`: the name, the arguments up to the
matching parenthesis, and a semicolon.  The rewriting has to put a block in the place of every call
and to leave everything else as it is; the block has the arguments of the call, which may have other
white space between their tokens.
-/

namespace Polycube.Polycubed.DatapathLog

open Lib

/-! ### Sources -/

inductive Quote
  | double | single
  deriving DecidableEq

def Quote.char : Quote → Char
  | double => '"'
  | single => '\''

inductive Comment
  | line (body : Text)
  | block (body : Text)
  deriving DecidableEq

inductive Piece
  | code (c : Char)
  /-- a backslash at the end of a line -/
  | splice
  | quoted (q : Quote) (body : Text)
  deriving DecidableEq

inductive Part
  | comment (c : Comment)
  | piece (p : Piece)
  deriving DecidableEq

def Comment.text : Comment → Text
  | line body => '/' :: '/' :: body
  | block body => '/' :: '*' :: (body ++ ['*', '/'])

def Piece.text : Piece → Text
  | code c => [c]
  | splice => DatapathLog.splice
  | quoted q body => q.char :: (body ++ [q.char])

def Part.text : Part → Text
  | comment c => c.text
  | piece p => p.text

def text (ps : List Piece) : Text := ps.flatMap Piece.text

def sourceText (parts : List Part) : Text := parts.flatMap Part.text

def LineBody (after : Text) : Text → Prop
  | [] => ∀ c ∈ after.head?, c = '\n'
  | ['\\'] => after = []
  | '\\' :: '\n' :: body => LineBody after body
  | c :: body => c ≠ '\n' ∧ LineBody after body

def QuotedBody (q : Char) : Text → Prop
  | [] => True
  | '\\' :: _ :: body => QuotedBody q body
  | c :: body => c ≠ q ∧ c ≠ '\\' ∧ c ≠ '\n' ∧ QuotedBody q body

/-- A character of code begins nothing else. -/
def Plainly (c : Char) (after : Text) : Prop :=
  c ≠ '"' ∧ c ≠ '\'' ∧ (c = '/' → ∀ d ∈ after.head?, d ≠ '/' ∧ d ≠ '*') ∧
    (c = '\\' → ∀ d ∈ after.head?, d ≠ '\n')

def Lexed : List Part → Prop
  | [] => True
  | .comment (.line body) :: parts => LineBody (sourceText parts) body ∧ Lexed parts
  | .comment (.block body) :: parts => ¬ ['*', '/'] <:+: body ∧ Lexed parts
  | .piece (.code c) :: parts => Plainly c (sourceText parts) ∧ Lexed parts
  | .piece .splice :: parts => Lexed parts
  | .piece (.quoted q body) :: parts => QuotedBody q.char body ∧ Lexed parts

structure Source where
  parts : List Part
  lexed : Lexed parts

def stripped : List Part → List Piece
  | [] => []
  | .comment _ :: parts => stripped parts
  | .piece p :: parts => p :: stripped parts

def Piece.blank : Piece → Bool
  | code c => isspace c
  | splice => true
  | quoted _ _ => false

def wordChar (c : Char) : Bool := c.isAlphanum || c = '_' || c = '$' || 128 ≤ c.toNat

/-- Up to the parenthesis that closes `depth` more than are opened. -/
def closing : ℕ → List Piece → Option (List Piece × List Piece)
  | _, [] => none
  | depth, .code '(' :: ps => (closing (depth + 1) ps).map fun x => (.code '(' :: x.1, x.2)
  | 0, .code ')' :: ps => some ([], ps)
  | depth + 1, .code ')' :: ps => (closing depth ps).map fun x => (.code ')' :: x.1, x.2)
  | depth, p :: ps => (closing depth ps).map fun x => (p :: x.1, x.2)

inductive Item
  | piece (p : Piece)
  | call (space args space' : List Piece)
  deriving DecidableEq

def call? (ps : List Piece) : Option (Item × List Piece) :=
  if name.map .code <+: ps then
    match (ps.drop name.length).dropWhile Piece.blank with
    | .code '(' :: inner =>
      match closing 0 inner with
      | some (args, after) =>
        match after.dropWhile Piece.blank with
        | .code ';' :: rest => some (.call ((ps.drop name.length).takeWhile Piece.blank) args
            (after.takeWhile Piece.blank), rest)
        | _ => none
      | none => none
    | _ => none
  else none

def Piece.inName (before : Bool) : Piece → Bool
  | code c => wordChar c
  | splice => before
  | quoted _ _ => false

/-- `fuel` is the number of pieces that may still come, `inName` that a name has begun before. -/
def itemsFrom : ℕ → Bool → List Piece → List Item
  | fuel + 1, inName, p :: ps =>
    match if inName then none else call? (p :: ps) with
    | some (call, rest) => call :: itemsFrom fuel false rest
    | none => .piece p :: itemsFrom fuel (p.inName inName) ps
  | _, _, _ => []

def items (ps : List Piece) : List Item := itemsFrom ps.length false ps

/-- Two tokens that have these pieces at their ends would be read as one without white space between
them. -/
def pastes : Piece → Piece → Bool
  | .code c, .code d =>
    wordChar c && wordChar d || c = '.' && (d.isDigit || d = '.') || c.isDigit && d = '.' ||
      (c ∈ ['e', 'E', 'p', 'P'] && (d = '+' || d = '-')) ||
      (d = '=' && c ∈ ['<', '>', '=', '!', '+', '-', '*', '/', '%', '&', '^', '|']) ||
      (c = d && c ∈ ['+', '-', '<', '>', '&', '|', '#', '/']) ||
      (c, d) ∈ [('-', '>'), ('/', '*'), ('<', ':'), (':', '>'), ('<', '%'), ('%', '>'), ('%', ':')]
  | .code c, .quoted _ _ => wordChar c
  | _, _ => false

def joined (p : Piece) : List Piece → Bool
  | [] => false
  | .splice :: ps => joined p ps
  | q :: _ => !q.blank && pastes p q

/-- The pieces without white space, and which are read together with the next one. -/
def shape : List Piece → List (Piece × Bool)
  | [] => []
  | p :: ps => if p.blank then shape ps else (p, joined p ps) :: shape ps

def Carries (ps : List Piece) (a : Text) : Prop := ∃ ps', text ps' = a ∧ shape ps' = shape ps

def logBlock (args : Text) : Text :=
  "
do \x7b
#if GET_LEVEL(".toList ++ (args ++ (") >= LOG_LEVEL
  LOG_STRUCT(".toList ++ (args ++ (");
  log_buffer.perf_submit(GET_CTX(".toList ++ (args ++ "), &msg_struct, sizeof(msg_struct));
#endif
\x7d while(0);
".toList)))))

def Renders : List Item → Text → Prop
  | [], out => out = []
  | .piece p :: is, out => ∃ out', out = p.text ++ out' ∧ Renders is out'
  | .call _ args _ :: is, out =>
    ∃ a out', Carries args a ∧ out = logBlock a ++ out' ∧ Renders is out'

/-- `parse_log` does to the source what it should. -/
def Source.Preserved (BASE_CODE : Text) (src : Source) : Prop :=
  ∃ out, parseLog BASE_CODE (sourceText src.parts) = BASE_CODE ++ out ∧
    Renders (items (stripped src.parts)) out

def RawLike (t : Text) : Prop :=
  ∃ d x t', d.length ≤ 16 ∧ (∀ c ∈ d, (c ≠ '(' && c ≠ '\\' && !isspace c) = true) ∧ ')' ∉ x ∧
    t = '"' :: (d ++ '(' :: (x ++ ')' :: (d ++ '"' :: t')))

def Unprefixed : List Part → Prop
  | [] => True
  | .piece (.code c) :: parts =>
    ((c = 'R' → ¬ RawLike (sourceText parts)) ∧
      (c = '@' → ∀ d ∈ (sourceText parts).head?, d ≠ '"')) ∧ Unprefixed parts
  | _ :: parts => Unprefixed parts

def CallLike (t : Text) : Prop :=
  ∃ w x w' t', (∀ c ∈ w, isspace c = true) ∧ x ≠ [] ∧ (∀ c ∈ w', isspace c = true) ∧
    t = name ++ (w ++ '(' :: (x ++ ')' :: (w' ++ ';' :: t')))

def Piece.breaks (p : Piece) : Bool := p = .code '\r' || p = .code '\n'

/-- Line breaks stand between tokens that would be read as one only with other white space. -/
def Separated : List Piece → Prop
  | [] => True
  | p :: ps => (p.blank = false → (∃ b ∈ ps.head?, b.breaks = true) →
      ∀ q ∈ (ps.dropWhile Piece.breaks).head?, q.blank = false → pastes p q = false) ∧ Separated ps

/-- The arguments of a call that come through the white space passes. -/
structure Quiet (args : List Piece) : Prop where
  unspliced : .splice ∉ args
  literals : ∀ q body, .quoted q body ∈ args →
    '\r' ∉ body ∧ '\n' ∉ body ∧ ¬ [' ', ' '] <:+: body
  noSlash : ¬ ['/', '\r', '\n'] <:+: text args
  noTab : ¬ ['\t', '/', 'i'] <:+: text args
  separated : Separated args

structure Found (space args space' : List Piece) : Prop where
  spelled : .splice ∉ space ∧ .splice ∉ space'
  some : args ≠ []
  inside : ∀ y w z, (∀ c ∈ w, isspace c = true) → text args ≠ y ++ ')' :: (w ++ ';' :: z)
  quiet : Quiet args

def Item.text : Item → Text
  | piece p => p.text
  | call space args space' => name ++ (DatapathLog.text space ++ '(' ::
      (DatapathLog.text args ++ ')' :: (DatapathLog.text space' ++ [';'])))

def Plain : List Item → Prop
  | [] => True
  | .piece p :: is => (∀ y z, p.text = y ++ z → z ≠ [] → ¬ CallLike (z ++ is.flatMap Item.text)) ∧
      Plain is
  | .call space args space' :: is => Found space args space' ∧ Plain is

/-- The sources that the regular expressions read as C does. -/
structure Source.Plain (src : Source) : Prop where
  unprefixed : Unprefixed src.parts
  plain : DatapathLog.Plain (items (stripped src.parts))

end Polycube.Polycubed.DatapathLog
