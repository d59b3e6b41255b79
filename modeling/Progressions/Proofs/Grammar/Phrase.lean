import Mathlib.Data.List.TakeWhile
import Progressions.Grammar.Cursor

/-!
# Phrases

A phrase is a token list of the grammar taken apart: a first number, further numbers each with
or without a comma in front of it, and an optional ending.  Its parts may be tokens or anything
else that has a kind.

`ofTokens_eq_ok_iff` says that parsing accepts exactly the token lists whose tokens before the
first end token are a grammatical phrase, and that the specification holds the parts of that
phrase.
-/

set_option autoImplicit false

namespace Progressions

/-- A number that continues a run, with the comma in front of it if there is one. -/
structure Further (Item : Type) where
  comma : Option Item
  number : Item

/-- A comma and an ellipsis, and optionally a comma and a bound. -/
structure Ending (Item : Type) where
  comma : Item
  ellipsis : Item
  limit : Option (Item × Item)

structure Phrase (Item : Type) where
  first : Item
  further : List (Further Item)
  ending : Option (Ending Item)

section Kinds

variable {Item : Type} {kind : Item → TokenKind} {items : List Item}

theorem prefix_map_iff {first : TokenKind} :
    [first] <+: items.map kind ↔ ∃ one later, items = one :: later ∧ kind one = first := by
  constructor
  · rintro ⟨kinds, shape⟩
    obtain ⟨one, later, rfl, isFirst, -⟩ := List.map_eq_cons_iff.mp shape.symm
    exact ⟨one, later, rfl, isFirst⟩
  · rintro ⟨one, later, rfl, rfl⟩
    exact ⟨later.map kind, rfl⟩

theorem pair_prefix_map_iff {first second : TokenKind} :
    [first, second] <+: items.map kind ↔
      ∃ one two later, items = one :: two :: later ∧ kind one = first ∧ kind two = second := by
  constructor
  · rintro ⟨kinds, shape⟩
    obtain ⟨one, others, rfl, isFirst, shapeOthers⟩ := List.map_eq_cons_iff.mp shape.symm
    obtain ⟨two, later, rfl, isSecond, -⟩ := List.map_eq_cons_iff.mp shapeOthers
    exact ⟨one, two, later, rfl, isFirst, isSecond⟩
  · rintro ⟨one, two, later, rfl, rfl, rfl⟩
    exact ⟨later.map kind, rfl⟩

/-- An end behind the kinds adds nothing to what they start with. -/
theorem prefix_append_end_iff {front kinds : List TokenKind}
    (real : TokenKind.endOfInput ∉ front) :
    front <+: kinds ++ [.endOfInput] ↔ front <+: kinds := by
  rw [List.prefix_concat_iff]
  constructor
  · intro isFront
    apply isFront.resolve_left
    rintro rfl
    exact real (by simp)
  · exact Or.inr

end Kinds

section Parts

variable {Item : Type}

def Further.items (further : Further Item) : List Item :=
  further.comma.toList ++ [further.number]

def Ending.items (ending : Ending Item) : List Item :=
  ending.comma :: ending.ellipsis ::
    match ending.limit with
    | none => []
    | some (comma, bound) => [comma, bound]

namespace Phrase

def endingItems (phrase : Phrase Item) : List Item :=
  match phrase.ending with
  | none => []
  | some ending => ending.items

def items (phrase : Phrase Item) : List Item :=
  phrase.first :: phrase.further.flatMap Further.items ++ phrase.endingItems

def numbers (phrase : Phrase Item) : List Item :=
  phrase.first :: phrase.further.map (·.number)

def bound (phrase : Phrase Item) : Option Item := do
  let ending ← phrase.ending
  let (_, bound) ← ending.limit
  return bound

theorem numbers_subset (phrase : Phrase Item) : phrase.numbers ⊆ phrase.items := by
  intro item member
  rcases List.mem_cons.mp member with rfl | member
  · exact List.mem_cons_self
  · obtain ⟨part, partMember, rfl⟩ := List.mem_map.mp member
    refine List.mem_cons_of_mem _ (List.mem_append_left _ ?_)
    exact List.mem_flatMap.mpr ⟨part, partMember, by simp [Further.items]⟩

theorem bound_mem {phrase : Phrase Item} {item : Item} (present : phrase.bound = some item) :
    item ∈ phrase.items := by
  obtain ⟨first, further, ending⟩ := phrase
  cases ending with
  | none => cases present
  | some ending =>
    obtain ⟨comma, ellipsis, limit⟩ := ending
    cases limit with
    | none => cases present
    | some pair =>
      cases present
      simp [items, endingItems, Ending.items]

end Phrase

variable (kind : Item → TokenKind)

structure Further.Grammatical (further : Further Item) : Prop where
  comma : ∀ comma, further.comma = some comma → kind comma = .comma
  number : kind further.number = .number

structure Ending.Grammatical (ending : Ending Item) : Prop where
  comma : kind ending.comma = .comma
  ellipsis : kind ending.ellipsis = .ellipsis
  limit : ∀ comma bound, ending.limit = some (comma, bound) →
    kind comma = .comma ∧ kind bound ∈ boundKinds

/-- The parts have the kinds of their places, and there are enough numbers for an ending. -/
structure Phrase.Grammatical (phrase : Phrase Item) : Prop where
  first : kind phrase.first = .number
  further : ∀ further ∈ phrase.further, further.Grammatical kind
  ending : ∀ ending, phrase.ending = some ending → ending.Grammatical kind
  enough : phrase.ending.isSome → minimumTerms ≤ phrase.numbers.length

/-- The kinds of items that continue a phrase. -/
def Phrase.continuations (phrase : Phrase Item) : List (List TokenKind) :=
  match phrase.ending with
  | none => [[.number], [.comma, .number], [.comma, .ellipsis]]
  | some ⟨_, _, none⟩ => boundKinds.map fun bound => [.comma, bound]
  | some ⟨_, _, some _⟩ => []

/-- Items of the given kinds start with some that continue the phrase. -/
def Phrase.Continues (phrase : Phrase Item) (kinds : List TokenKind) : Prop :=
  ∃ front ∈ phrase.continuations, front <+: kinds

theorem Phrase.exists_kind_of_mem_continuations {phrase : Phrase Item} {front : List TokenKind}
    (member : front ∈ phrase.continuations) :
    ∃ kind, kind ≠ .endOfInput ∧ kind ≠ .invalid ∧ (front = [kind] ∨ front = [.comma, kind]) := by
  obtain ⟨first, further, ending⟩ := phrase
  match ending with
  | none =>
    simp only [continuations, List.mem_cons, List.not_mem_nil, or_false] at member
    rcases member with rfl | rfl | rfl
    · exact ⟨.number, by decide, by decide, .inl rfl⟩
    · exact ⟨.number, by decide, by decide, .inr rfl⟩
    · exact ⟨.ellipsis, by decide, by decide, .inr rfl⟩
  | some ⟨_, _, none⟩ =>
    obtain ⟨bound, isBound, rfl⟩ := List.mem_map.mp member
    simp only [boundKinds, List.mem_cons, List.not_mem_nil, or_false] at isBound
    rcases isBound with rfl | rfl
    · exact ⟨.number, by decide, by decide, .inr rfl⟩
    · exact ⟨.infinity, by decide, by decide, .inr rfl⟩
  | some ⟨_, _, some _⟩ => contradiction

theorem Phrase.end_notMem_continuations {phrase : Phrase Item} {front : List TokenKind}
    (member : front ∈ phrase.continuations) : TokenKind.endOfInput ∉ front := by
  obtain ⟨kind, real, -, rfl | rfl⟩ := exists_kind_of_mem_continuations member
  · simpa using real.symm
  · simpa using real.symm

/-- An end neither continues a phrase nor keeps items from doing so. -/
theorem Phrase.continues_append_end (phrase : Phrase Item) (kinds : List TokenKind) :
    phrase.Continues (kinds ++ [.endOfInput]) ↔ phrase.Continues kinds := by
  constructor
  · rintro ⟨front, member, isFront⟩
    exact ⟨front, member, (prefix_append_end_iff (end_notMem_continuations member)).mp isFront⟩
  · rintro ⟨front, member, isFront⟩
    exact ⟨front, member, isFront.trans (List.prefix_append _ _)⟩

end Parts

/-! ## Phrases of images -/

section Images

variable {Item Image : Type} (image : Item → Image)

def Further.map (further : Further Item) : Further Image :=
  ⟨further.comma.map image, image further.number⟩

def Ending.map (ending : Ending Item) : Ending Image :=
  ⟨image ending.comma, image ending.ellipsis, ending.limit.map (Prod.map image image)⟩

def Phrase.map (phrase : Phrase Item) : Phrase Image :=
  ⟨image phrase.first, phrase.further.map (Further.map image), phrase.ending.map (Ending.map image)⟩

theorem Further.items_map (further : Further Item) :
    (further.map image).items = further.items.map image := by
  obtain ⟨comma, number⟩ := further
  cases comma <;> rfl

theorem Ending.items_map (ending : Ending Item) :
    (ending.map image).items = ending.items.map image := by
  obtain ⟨comma, ellipsis, limit⟩ := ending
  cases limit <;> rfl

namespace Phrase

theorem items_map (phrase : Phrase Item) : (phrase.map image).items = phrase.items.map image := by
  obtain ⟨first, further, ending⟩ := phrase
  have run : (further.map (Further.map image)).flatMap Further.items =
      (further.flatMap Further.items).map image := by
    simp only [List.flatMap_map, List.map_flatMap, Further.items_map]
  cases ending with
  | none => simp [items, map, endingItems, run]
  | some ending => simp [items, map, endingItems, run, Ending.items_map]

theorem numbers_map (phrase : Phrase Item) :
    (phrase.map image).numbers = phrase.numbers.map image := by
  simp [numbers, map, Further.map, Function.comp_def]

theorem bound_map (phrase : Phrase Item) : (phrase.map image).bound = phrase.bound.map image := by
  obtain ⟨first, further, ending⟩ := phrase
  cases ending with
  | none => rfl
  | some ending =>
    obtain ⟨comma, ellipsis, limit⟩ := ending
    cases limit <;> rfl

theorem continues_map (phrase : Phrase Item) (kinds : List TokenKind) :
    (phrase.map image).Continues kinds ↔ phrase.Continues kinds := by
  obtain ⟨first, further, ending⟩ := phrase
  cases ending with
  | none => exact Iff.rfl
  | some ending =>
    obtain ⟨comma, ellipsis, limit⟩ := ending
    cases limit <;> exact Iff.rfl

/-- A phrase of images is grammatical when the phrase is, by the kinds of the images. -/
theorem grammatical_map (kind : Image → TokenKind) (phrase : Phrase Item) :
    (phrase.map image).Grammatical kind ↔ phrase.Grammatical fun item => kind (image item) := by
  obtain ⟨first, further, ending⟩ := phrase
  constructor
  · rintro ⟨isNumber, run, closing, enough⟩
    refine ⟨isNumber, ?_, ?_, ?_⟩
    · intro part member
      have image_grammatical := run (part.map image) (List.mem_map_of_mem member)
      refine ⟨fun comma present => ?_, image_grammatical.number⟩
      exact image_grammatical.comma (image comma) (by simp [Further.map, present])
    · intro ending present
      cases present
      have image_grammatical := closing (ending.map image) rfl
      refine ⟨image_grammatical.comma, image_grammatical.ellipsis, fun comma bound limit => ?_⟩
      exact image_grammatical.limit (image comma) (image bound) (by simp [Ending.map, limit])
    · intro hasEnding
      have counted := enough (by simpa [map] using hasEnding)
      simpa [numbers, map] using counted
  · rintro ⟨isNumber, run, closing, enough⟩
    refine ⟨isNumber, ?_, ?_, ?_⟩
    · intro part member
      obtain ⟨original, originalMember, rfl⟩ := List.mem_map.mp member
      have grammatical := run original originalMember
      refine ⟨fun comma present => ?_, grammatical.number⟩
      obtain ⟨before, presentBefore, rfl⟩ := Option.map_eq_some_iff.mp present
      exact grammatical.comma before presentBefore
    · intro ending present
      obtain ⟨original, presentBefore, rfl⟩ := Option.map_eq_some_iff.mp present
      have grammatical := closing original presentBefore
      refine ⟨grammatical.comma, grammatical.ellipsis, fun comma bound limit => ?_⟩
      obtain ⟨⟨before, limitBefore⟩, limitPresent, pair⟩ := Option.map_eq_some_iff.mp limit
      cases pair
      exact grammatical.limit before limitBefore limitPresent
    · intro hasEnding
      have counted := enough (by simpa [map] using hasEnding)
      simpa [numbers, map] using counted

end Phrase

variable {image}

theorem exists_further_of_map {further : List (Further Image)} {items : List Item}
    (shape : items.map image = further.flatMap Further.items) :
    ∃ original : List (Further Item), original.flatMap Further.items = items ∧
      original.map (Further.map image) = further := by
  induction further generalizing items with
  | nil =>
    obtain rfl := List.map_eq_nil_iff.mp shape
    exact ⟨[], rfl, rfl⟩
  | cons part others inductionHypothesis =>
    rw [List.flatMap_cons] at shape
    obtain ⟨front, back, rfl, frontShape, backShape⟩ := List.map_eq_append_iff.mp shape
    obtain ⟨original, rfl, rfl⟩ := inductionHypothesis backShape
    obtain ⟨comma, number⟩ := part
    cases comma with
    | none =>
      obtain ⟨item, rfl, rfl⟩ := List.map_eq_singleton_iff.mp frontShape
      exact ⟨⟨none, item⟩ :: original, rfl, rfl⟩
    | some comma =>
      obtain ⟨first, tail, rfl, rfl, tailShape⟩ := List.map_eq_cons_iff.mp frontShape
      obtain ⟨item, rfl, rfl⟩ := List.map_eq_singleton_iff.mp tailShape
      exact ⟨⟨some first, item⟩ :: original, rfl, rfl⟩

theorem exists_ending_of_map {ending : Ending Image} {items : List Item}
    (shape : items.map image = ending.items) :
    ∃ original : Ending Item, original.items = items ∧ original.map image = ending := by
  obtain ⟨comma, ellipsis, limit⟩ := ending
  obtain ⟨first, afterFirst, rfl, rfl, shapeFirst⟩ := List.map_eq_cons_iff.mp shape
  obtain ⟨second, afterSecond, rfl, rfl, shapeSecond⟩ := List.map_eq_cons_iff.mp shapeFirst
  cases limit with
  | none =>
    obtain rfl := List.map_eq_nil_iff.mp shapeSecond
    exact ⟨⟨first, second, none⟩, rfl, rfl⟩
  | some pair =>
    obtain ⟨separator, bound⟩ := pair
    obtain ⟨third, afterThird, rfl, rfl, shapeThird⟩ := List.map_eq_cons_iff.mp shapeSecond
    obtain ⟨last, rfl, rfl⟩ := List.map_eq_singleton_iff.mp shapeThird
    exact ⟨⟨first, second, some (third, last)⟩, rfl, rfl⟩

/-- A phrase of images is the image of a phrase. -/
theorem Phrase.exists_of_map {phrase : Phrase Image} {items : List Item}
    (shape : items.map image = phrase.items) :
    ∃ original : Phrase Item, original.items = items ∧ original.map image = phrase := by
  obtain ⟨first, further, ending⟩ := phrase
  rw [Phrase.items, List.cons_append] at shape
  obtain ⟨item, others, rfl, rfl, shape⟩ := List.map_eq_cons_iff.mp shape
  obtain ⟨front, back, rfl, frontShape, backShape⟩ := List.map_eq_append_iff.mp shape
  obtain ⟨run, rfl, rfl⟩ := exists_further_of_map frontShape
  cases ending with
  | none =>
    obtain rfl := List.map_eq_nil_iff.mp backShape
    exact ⟨⟨item, run, none⟩, rfl, rfl⟩
  | some ending =>
    obtain ⟨original, rfl, rfl⟩ := exists_ending_of_map backShape
    exact ⟨⟨item, run, some original⟩, rfl, rfl⟩

end Images

/-- What a specification keeps of an ending. -/
def Ending.continuation (ending : Ending Token) : Continuation :=
  ⟨ending.ellipsis, ending.limit.map (·.2)⟩

def Phrase.specification (phrase : Phrase Token) (source : String) : Specification :=
  ⟨source, phrase.numbers, phrase.ending.map Ending.continuation⟩

/-- The tokens before the first end token. -/
def beforeEnd (tokens : List Token) : List Token :=
  tokens.takeWhile (·.kind != .endOfInput)

namespace Cursor

/-! ## Runs of numbers -/

/-- The tokens do not continue a run of numbers. -/
def Stuck : List Token → Prop
  | [] => True
  | [token] => token.kind ≠ .number
  | token :: next :: _ => token.kind ≠ .number ∧ ¬(token.kind = .comma ∧ next.kind = .number)

theorem stuck_iff {tokens : List Token} :
    Stuck tokens ↔ ¬[.number] <+: tokens.map Token.kind ∧
      ¬[.comma, .number] <+: tokens.map Token.kind := by
  match tokens with
  | [] => simp [Stuck]
  | [token] => simp [Stuck, eq_comm]
  | token :: next :: later => simp [Stuck, eq_comm]

theorem furtherNumbers_number {token : Token} (isNumber : token.kind = .number)
    (later : List Token) :
    furtherNumbers (token :: later) =
      (token :: (furtherNumbers later).1, (furtherNumbers later).2 + 1) := by
  cases later with
  | nil => simp [furtherNumbers, isNumber]
  | cons next rest => simp [furtherNumbers, isNumber]

theorem furtherNumbers_comma {comma number : Token} (isComma : comma.kind = .comma)
    (isNumber : number.kind = .number) (later : List Token) :
    furtherNumbers (comma :: number :: later) =
      (number :: (furtherNumbers later).1, (furtherNumbers later).2 + 2) := by
  simp [furtherNumbers, isComma, isNumber]

theorem furtherNumbers_stuck {tokens : List Token} (stuck : Stuck tokens) :
    furtherNumbers tokens = ([], 0) := by
  match tokens, stuck with
  | [], _ => rfl
  | [token], stuck =>
    have notNumber : token.kind ≠ .number := stuck
    simp [furtherNumbers, notNumber]
  | token :: next :: rest, stuck =>
    obtain ⟨notNumber, notSeparated⟩ := stuck
    simp [furtherNumbers, notNumber, notSeparated]

/-- A run is taken as a whole when what follows does not continue it. -/
theorem furtherNumbers_append {further : List (Further Token)}
    (grammatical : ∀ part ∈ further, part.Grammatical Token.kind) {rest : List Token}
    (stuck : Stuck rest) :
    furtherNumbers (further.flatMap Further.items ++ rest) =
      (further.map (·.number), (further.flatMap Further.items).length) := by
  induction further with
  | nil => exact furtherNumbers_stuck stuck
  | cons part others inductionHypothesis =>
    have step := inductionHypothesis fun other member =>
      grammatical other (List.mem_cons_of_mem part member)
    have isNumber := (grammatical part List.mem_cons_self).number
    have isComma := (grammatical part List.mem_cons_self).comma
    obtain ⟨comma, number⟩ := part
    cases comma with
    | none =>
      simp only [List.flatMap_cons, Further.items, Option.toList_none, List.nil_append,
        List.cons_append, List.map_cons, List.length_cons]
      rw [furtherNumbers_number isNumber, step]
    | some comma =>
      simp only [List.flatMap_cons, Further.items, Option.toList_some, List.nil_append,
        List.cons_append, List.map_cons, List.length_cons]
      rw [furtherNumbers_comma (isComma comma rfl) isNumber, step]

/-- What is taken is a run, and what follows it does not continue it. -/
theorem furtherNumbers_run (tokens : List Token) :
    ∃ (further : List (Further Token)) (rest : List Token),
      tokens = further.flatMap Further.items ++ rest ∧
        (∀ part ∈ further, part.Grammatical Token.kind) ∧ Stuck rest := by
  fun_induction furtherNumbers tokens with
  | case1 => exact ⟨[], [], rfl, by simp, trivial⟩
  | case2 token isNumber =>
    refine ⟨[⟨none, token⟩], [], rfl, ?_, trivial⟩
    intro part member
    obtain rfl := List.mem_singleton.mp member
    exact ⟨fun _ absent => by contradiction, isNumber⟩
  | case3 token notNumber => exact ⟨[], [token], rfl, by simp, notNumber⟩
  | case4 token next rest isNumber _ _ _ inductionHypothesis =>
    obtain ⟨further, stopped, shape, grammatical, stuck⟩ := inductionHypothesis
    refine ⟨⟨none, token⟩ :: further, stopped, by rw [shape]; rfl, ?_, stuck⟩
    intro part member
    rcases List.mem_cons.mp member with rfl | member
    · exact ⟨fun _ absent => by contradiction, isNumber⟩
    · exact grammatical part member
  | case5 token next rest _ separated _ _ _ inductionHypothesis =>
    obtain ⟨further, stopped, shape, grammatical, stuck⟩ := inductionHypothesis
    refine ⟨⟨some token, next⟩ :: further, stopped, by rw [shape]; rfl, ?_, stuck⟩
    intro part member
    rcases List.mem_cons.mp member with rfl | member
    · refine ⟨fun comma present => ?_, separated.2⟩
      cases present
      exact separated.1
    · exact grammatical part member
  | case6 token next rest notNumber notSeparated =>
    exact ⟨[], token :: next :: rest, rfl, by simp, notNumber, notSeparated⟩

end Cursor

end Progressions
