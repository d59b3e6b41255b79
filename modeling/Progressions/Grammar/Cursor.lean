import Progressions.Grammar.Error
import Progressions.Grammar.Specification
import Progressions.Position
import Progressions.Token.Reading

/-!
# Parsing

    specification = NUMBER (COMMA? NUMBER)* tail? end
    tail          = COMMA ELLIPSIS (COMMA (NUMBER | INFINITY))?

with at least three numbers before a tail.  A `Cursor` is a position in a token
list.  Tokens at and after the first end token, or beyond the list, are never
consumed, and an operation that fails leaves the cursor behind what it consumed.
-/

set_option autoImplicit false

namespace Progressions

def minimumTerms : Nat := 3

def boundKinds : List TokenKind := [.number, .infinity]

structure Cursor where
  tokens : List Token
  position : Nat

namespace Cursor

def ofTokens (tokens : List Token) : Cursor := ⟨tokens, 0⟩

def source (cursor : Cursor) : String :=
  match cursor.tokens with
  | [] => ""
  | first :: _ => first.location.source

/-- The token some places ahead; beyond the list, one that stands at the end of the source. -/
def peek (cursor : Cursor) (ahead : Nat) : Token :=
  (cursor.tokens[cursor.position + ahead]?).getD
    (Token.atEnd cursor.source cursor.source.length)

/-- The token some places ahead or behind.  A place before the list counts from its end, and
there is no token before that. -/
def glance? (cursor : Cursor) (ahead : Int) : Option Token :=
  let place := cursor.position + ahead
  if place < cursor.tokens.length then Position.item? cursor.tokens place
  else some (Token.atEnd cursor.source cursor.source.length)

def check (cursor : Cursor) (kind : TokenKind) : Bool := (cursor.peek 0).kind == kind

/-- A comma is next, and a token of the kind follows it. -/
def checkSeparated (cursor : Cursor) (kind : TokenKind) : Bool :=
  cursor.check .comma && (cursor.peek 1).kind == kind

def atEnd (cursor : Cursor) : Bool := cursor.check .endOfInput

/-- The next token, consumed unless it is an end. -/
def advance (cursor : Cursor) : Token × Cursor :=
  (cursor.peek 0,
    if cursor.atEnd then cursor else { cursor with position := cursor.position + 1 })

def advanceBy (cursor : Cursor) : Nat → Cursor
  | 0 => cursor
  | count + 1 => cursor.advance.2.advanceBy count

/-- The numbers that continue a run at the front of a token list, each with or without a comma
before it, and how many tokens they take. -/
def furtherNumbers : List Token → List Token × Nat
  | [] => ([], 0)
  | [token] => if token.kind = .number then ([token], 1) else ([], 0)
  | token :: next :: rest =>
    if token.kind = .number then
      let (numbers, count) := furtherNumbers (next :: rest)
      (token :: numbers, count + 1)
    else if token.kind = .comma ∧ next.kind = .number then
      let (numbers, count) := furtherNumbers rest
      (next :: numbers, count + 2)
    else
      ([], 0)

def numbers (cursor : Cursor) : Except GrammarError (List Token) × Cursor :=
  let first := cursor.peek 0
  if first.kind = .comma then
    if (cursor.peek 1).kind = .number then (.error (.leadingComma first), cursor)
    else (.error (.noNumbers first), cursor)
  else if first.kind = .number then
    let (further, count) := furtherNumbers (cursor.tokens.drop (cursor.position + 1))
    (.ok (first :: further), { cursor with position := cursor.position + 1 + count })
  else
    (.error (.noNumbers first), cursor)

/-- A comma and the token of a bound of one of the kinds, if they are next. -/
def boundAmong (cursor : Cursor) : List TokenKind → Option Token × Cursor
  | [] => (none, cursor)
  | kind :: kinds =>
    if cursor.checkSeparated kind then
      let (token, after) := cursor.advance.2.advance
      (some token, after)
    else
      cursor.boundAmong kinds

def bound (cursor : Cursor) : Option Token × Cursor := cursor.boundAmong boundKinds

def finish (cursor : Cursor) (terms : List Token) (continuation : Option Continuation) :
    Except GrammarError Specification × Cursor :=
  if cursor.atEnd then (.ok ⟨cursor.source, terms, continuation⟩, cursor)
  else (.error (.extraneous (cursor.peek 0)), cursor)

/-- The whole token list as a specification whose bound has one of the kinds, whatever the
position. -/
def parseAmong (kinds : List TokenKind) (cursor : Cursor) :
    Except GrammarError Specification × Cursor :=
  match (ofTokens cursor.tokens).numbers with
  | (.error cause, after) => (.error cause, after)
  | (.ok terms, after) =>
    if after.checkSeparated .ellipsis then
      let ellipsis := after.peek 1
      if terms.length < minimumTerms then (.error (.fewNumbers ellipsis terms.length), after)
      else
        let (limit, last) := (after.advanceBy 2).boundAmong kinds
        last.finish terms (some ⟨ellipsis, limit⟩)
    else
      after.finish terms none

def parse (cursor : Cursor) : Except GrammarError Specification × Cursor :=
  cursor.parseAmong boundKinds

end Cursor

def Specification.ofTokens (tokens : List Token) : Except GrammarError Specification :=
  (Cursor.ofTokens tokens).parse.1

end Progressions
