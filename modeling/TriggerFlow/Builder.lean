import TriggerFlow.Document
import TriggerFlow.Decimal.Layout
import TriggerFlow.Failure
import TriggerFlow.Text.Quoted

/-!
# Editing a document

An edit takes a document and gives another one or a failure; the document it was given is still
there. Only appending needs more than the document: a new action gets an id of its own, made of its
kind and a token. Tokens come from a source that may be anything, even one that repeats itself for
ever, so after sixty-four of them **the builder turns to spare tokens, which do not repeat, and of
these it looks at no more than one for each action of the document and one beyond**.
-/

set_option autoImplicit false

namespace TriggerFlow

/-! ## Edits of a document alone -/

namespace Document

/-- The actions, if a position is one of theirs. -/
def checkIndex (d : Document) (index : Nat) : Except Failure Unit :=
  if index < d.size then .ok () else .error (.indexOutOfRange index d.size)

/-- Without the action at a position. -/
def remove (d : Document) (index : Nat) : Except Failure Document := do
  d.checkIndex index
  return { d with actions := d.actions.eraseIdx index }

/-- With the action from one position at another one, counted once it has been taken out. -/
def move (d : Document) (source target : Nat) : Except Failure Document := do
  d.checkIndex source
  d.checkIndex target
  match d.actions[source]? with
  | some a => return { d with actions := (d.actions.eraseIdx source).insertIdx target a }
  | none => return d

def relabel (d : Document) (label : String) : Document :=
  { d with label }

end Document

/-! ## Tokens -/

/-- Hands out tokens. -/
class TokenSource (τ : Type) where
  next : τ → String × τ

/-- Numbers in turn. -/
structure Counter where
  /-- The last number handed out. -/
  last : Nat
  deriving DecidableEq, Repr

namespace Counter

def initial : Counter :=
  ⟨0⟩

def next (c : Counter) : String × Counter :=
  (toString (c.last + 1), ⟨c.last + 1⟩)

instance : TokenSource Counter := ⟨next⟩

end Counter

/-- A list of tokens, of which the last one is handed out for ever. -/
structure TokenList where
  tokens : List String
  deriving DecidableEq, Repr

namespace TokenList

def next (l : TokenList) : String × TokenList :=
  match l.tokens with
  | [] => ("", l)
  | [token] => (token, l)
  | token :: tokens => (token, ⟨tokens⟩)

instance : TokenSource TokenList := ⟨next⟩

end TokenList

/-- Numbers of 128 bits or more in hexadecimal. Two sources that start far apart never hand out the
same token. -/
structure Serial where
  upcoming : Nat
  deriving DecidableEq, Repr

namespace Serial

/-- The token with a number. -/
def token (n : Nat) : String :=
  Decimal.padZeros 32 (Text.hexDigits n)

def next (s : Serial) : String × Serial :=
  (token s.upcoming, ⟨s.upcoming + 1⟩)

instance : TokenSource Serial := ⟨next⟩

end Serial

/-! ## Appending -/

/-- Makes the ids of new actions. -/
structure Builder (τ : Type) where
  source : τ
  /-- The tokens to turn to when the source keeps repeating itself. -/
  spare : Nat → String
  /-- How many of them have been used. -/
  spared : Nat

namespace Builder

variable {τ : Type}

/-- A builder whose spare tokens are numbered from the start. -/
def new (source : τ) (spare : Nat → String) : Builder τ :=
  ⟨source, spare, 0⟩

/-- The id that a kind makes of a token. -/
def idOf (kind : Kind) (token : String) : String :=
  kind.id ++ "-" ++ token

/-- How many tokens of the source are tried for one action. -/
def attempts : Nat := 64

/-- Tries so many tokens of the source for one that is free in a document. -/
def tryTokens [TokenSource τ] (d : Document) (kind : Kind) : Nat → τ → Option String × τ
  | 0, source => (none, source)
  | n + 1, source =>
    let (token, source) := TokenSource.next source
    if d.containsId (idOf kind token) then tryTokens d kind n source
    else (some (idOf kind token), source)

/-- The number of the first spare token from `index` on that is free in a document. Of the next
`tries` one is passed over for each that is not; that the one after them is free follows, if the
tokens do not repeat, from the number of ids in the document. -/
def firstFree (d : Document) (kind : Kind) (spare : Nat → String) : Nat → Nat → Nat
  | 0, index => index
  | tries + 1, index =>
    if d.containsId (idOf kind (spare index)) then firstFree d kind spare tries (index + 1)
    else index

/-- An id that no action of a document has. -/
def freshId [TokenSource τ] (b : Builder τ) (d : Document) (kind : Kind) : String × Builder τ :=
  match tryTokens d kind attempts b.source with
  | (some id, source) => (id, { b with source })
  | (none, source) =>
    let index := firstFree d kind b.spare d.size b.spared
    (idOf kind (b.spare index), { b with source, spared := index + 1 })

/-- Adds an action at the end. The kind may be given by short name and is kept by id; the parameter
is kept only if the kind takes one. An unknown kind uses up no token. -/
def append [TokenSource τ] (b : Builder τ) (d : Document) (name param : String) :
    Except Failure Document × Builder τ :=
  match Kind.ofName? name with
  | none => (.error (.unknownKind name), b)
  | some kind =>
    let (id, b) := b.freshId d kind
    let action : Action :=
      ⟨id, kind.id, kind.label, if kind.hasParam then some param else none⟩
    (.ok { d with actions := d.actions ++ [action] }, b)

end Builder

end TriggerFlow
