import Mathlib.Logic.Function.Iterate
import Progressions.Proofs.CommandLine.Lines
import Progressions.Proofs.Stream.Reference

/-!
# Runs of a printer

A printer that stands at a place of a stream writes the value there and stands one place further, or
finds the end, writes a line end and is done.  A whole run therefore writes the values in order with
separators between them, as long as the reader waits.

Each step moves the iterator at most once, so a run moves it no more often than a limit allows, and
no more than once behind the last line that a reader waits for.
-/

set_option autoImplicit false

namespace Progressions

namespace Sequence

variable {sequence : Sequence} {count : Nat} {value : Number} {values : List Number}

/-- From a place on the stream has these values. -/
def Gives (sequence : Sequence) (count : Nat) (values : List Number) : Prop :=
  ∀ place (within : place < values.length),
    sequence.reference (count + place) = .ok (some values[place])

theorem Gives.head (gives : sequence.Gives count (value :: values)) :
    sequence.reference count = .ok (some value) :=
  gives 0 (Nat.zero_lt_succ _)

theorem Gives.tail (gives : sequence.Gives count (value :: values)) :
    sequence.Gives (count + 1) values := by
  intro place within
  have further := gives (place + 1) (Nat.succ_lt_succ within)
  rw [Nat.add_right_comm, Nat.add_assoc]
  exact further

theorem Gives.take (gives : sequence.Gives count values) (front : Nat) :
    sequence.Gives count (values.take front) := by
  intro place within
  have inside : place < values.length :=
    Nat.lt_of_lt_of_le within (List.length_take_le' front values)
  rw [List.getElem_take]
  exact gives place inside

end Sequence

namespace CommandLine

/-! ## Outlets -/

namespace Outlet

variable {outlet : Outlet} {piece : String}

/-- The reader still waits when so much more has been written. -/
def Waits (outlet : Outlet) (text : String) : Prop :=
  ∀ patience ∈ outlet.patience, lineEnds (outlet.written ++ text) < patience

theorem Waits.front {front back : String} (waits : outlet.Waits (front ++ back)) :
    outlet.Waits front := by
  intro patience expected
  have later := waits patience expected
  rw [← String.append_assoc, lineEnds_append] at later
  omega

theorem Waits.back {front back : String} (waits : outlet.Waits (front ++ back)) :
    (outlet.append front).Waits back := by
  intro patience expected
  have later := waits patience expected
  rw [← String.append_assoc] at later
  exact later

@[simp] theorem append_empty (outlet : Outlet) : outlet.append "" = outlet := by
  rw [append, String.append_empty]

theorem closed_append {text : String} (waits : outlet.Waits text) :
    (outlet.append text).closed = false := by
  rw [closed]
  split
  · rfl
  · next patience expected => exact decide_eq_false (Nat.not_le.mpr (waits patience expected))

theorem closed_eq_false {text : String} (waits : outlet.Waits text) : outlet.closed = false := by
  have start : outlet.Waits ("" ++ text) := by
    rw [String.empty_append]
    exact waits
  rw [← append_empty outlet]
  exact closed_append start.front

theorem append_append (outlet : Outlet) (front back : String) :
    (outlet.append front).append back = outlet.append (front ++ back) := by
  rw [append, append, append, String.append_assoc]

theorem writeAll_open (isOpen : outlet.closed = false) (rest : List (Except Fault String)) :
    outlet.writeAll (.ok piece :: rest) = (outlet.append piece).writeAll rest := by
  rw [writeAll, isOpen, if_neg Bool.false_ne_true]

theorem writeAll_closed (isClosed : outlet.closed = true) (rest : List (Except Fault String)) :
    outlet.writeAll (.ok piece :: rest) = (outlet, some .brokenPipe) := by
  rw [writeAll, if_pos isClosed]

theorem writeAll_ok (pieces : List String) (waits : outlet.Waits (String.join pieces)) :
    outlet.writeAll (pieces.map .ok) = (outlet.append (String.join pieces), none) := by
  induction pieces generalizing outlet with
  | nil =>
    rw [String.join_nil, append_empty]
    rfl
  | cons piece pieces inductionHypothesis =>
    rw [String.join_cons] at waits ⊢
    rw [List.map_cons, writeAll_open (closed_eq_false waits), inductionHypothesis waits.back,
      append_append]

theorem writeAll_append (outlet : Outlet) (front back : List (Except Fault String)) :
    outlet.writeAll (front ++ back) =
      match outlet.writeAll front with
      | (rest, none) => rest.writeAll back
      | (rest, some fault) => (rest, some fault) := by
  induction front generalizing outlet with
  | nil => rfl
  | cons first front inductionHypothesis =>
    rw [List.cons_append]
    cases first with
    | error fault => rfl
    | ok piece =>
      cases isClosed : outlet.closed with
      | true => rw [writeAll_closed isClosed, writeAll_closed isClosed]
      | false => rw [writeAll_open isClosed, writeAll_open isClosed, inductionHypothesis]

theorem waits_of_length_le {texts : List String} {patience : Nat} (nonempty : texts ≠ [])
    (clean : ∀ text ∈ texts, '\n' ∉ text.toList) (within : texts.length ≤ patience) :
    Waits ⟨"", patience⟩ ("\n".intercalate texts) := by
  intro expected isPatience
  cases isPatience
  have between := lineEnds_intercalate nonempty clean
  rw [String.empty_append]
  omega

theorem append_lines {texts : List String} (nonempty : texts ≠ []) (patience : Option Nat) :
    (Outlet.mk "" patience).append ("\n".intercalate texts ++ "\n") = ⟨lines texts, patience⟩ := by
  rw [append, intercalate_newline nonempty, String.empty_append]

/-- Behind the last line that the reader waits for a line end is written, and then no more. -/
theorem writeAll_past_lines {texts : List String} (nonempty : texts ≠ [])
    (clean : ∀ text ∈ texts, '\n' ∉ text.toList) (text : String) :
    ((Outlet.mk "" texts.length).append ("\n".intercalate texts)).writeAll [.ok "\n", .ok text] =
      (⟨lines texts, some texts.length⟩, some .brokenPipe) := by
  have waits := waits_of_length_le nonempty clean (Nat.le_refl texts.length)
  have isClosed : closed ⟨lines texts, some texts.length⟩ = true := by
    refine decide_eq_true ?_
    rw [lineEnds_lines clean]
  rw [writeAll_open (closed_append waits), append_append, append_lines nonempty,
    writeAll_closed isClosed]

theorem exists_of_writeAll {rest : Outlet} {first : Except Fault String}
    {others : List (Except Fault String)}
    (written : outlet.writeAll (first :: others) = (rest, none)) :
    ∃ piece, outlet.closed = false ∧ (outlet.append piece).writeAll others = (rest, none) ∧
      first = .ok piece := by
  cases first with
  | error fault => cases written
  | ok piece =>
    cases isClosed : outlet.closed with
    | true =>
      rw [writeAll_closed isClosed] at written
      cases written
    | false =>
      rw [writeAll_open isClosed] at written
      exact ⟨piece, rfl, written, rfl⟩

theorem lt_of_open {patience : Nat} (expects : outlet.patience = some patience)
    (isOpen : outlet.closed = false) : lineEnds outlet.written < patience := by
  rw [closed, expects] at isOpen
  exact Nat.not_le.mp (of_decide_eq_false isOpen)

theorem lineEnds_of_written {patience : Nat} {rest : Outlet} {piece : Except Fault String}
    (expects : outlet.patience = some patience)
    (written : outlet.writeAll [piece] = (rest, none)) :
    rest.patience = some patience ∧ lineEnds outlet.written < patience ∧
      lineEnds outlet.written ≤ lineEnds rest.written := by
  obtain ⟨text, isOpen, isRest, -⟩ := exists_of_writeAll written
  obtain ⟨rfl, -⟩ := Prod.mk.inj isRest
  refine ⟨expects, lt_of_open expects isOpen, ?_⟩
  rw [append, lineEnds_append]
  exact Nat.le_add_right _ _

end Outlet

/-! ## Steps -/

namespace Printer

variable {printer : Printer} {outlet : Outlet} {sequence : Sequence} {count : Nat} {value : Number}

/-- The printer stands where so many values of the sequence have been handed out. -/
structure StandsAt (printer : Printer) (sequence : Sequence) (count : Nat) : Prop where
  isSequence : printer.iterator.sequence = sequence
  stands : Sequence.Stands sequence count printer.iterator.state

/-- So many more values may be printed. -/
def Allows (printer : Printer) (more : Nat) : Prop :=
  ∀ remaining ∈ printer.remaining, more ≤ remaining

def after (printer : Printer) : Printer :=
  ⟨printer.iterator.pull.2, printer.remaining.map (· - 1), printer.separator, false⟩

/-- What is written with a value: the separator in front of it unless it is the first. -/
def piecesOf (printer : Printer) (value : Number) : List (Except Fault String) :=
  let pieces := [value.printed.mapError Fault.number]
  if printer.first then pieces else printer.separatorPiece :: pieces

theorem StandsAt.after (standsAt : printer.StandsAt sequence count) :
    printer.after.StandsAt sequence (count + 1) := by
  obtain ⟨rfl, stands⟩ := standsAt
  exact ⟨rfl, (Sequence.advance_stands stands).2⟩

theorem StandsAt.outcome (standsAt : printer.StandsAt sequence count) :
    printer.iterator.pull.1.outcome = (sequence.reference count).mapError .number := by
  obtain ⟨rfl, stands⟩ := standsAt
  exact (Sequence.advance_stands stands).1

theorem Allows.after {more : Nat} (allows : printer.Allows (more + 1)) :
    printer.after.Allows more := by
  intro remaining isRemaining
  obtain ⟨before, isBefore, rfl⟩ := Option.map_eq_some_iff.mp isRemaining
  have enough := allows before isBefore
  omega

theorem Allows.remaining_ne {more : Nat} (allows : printer.Allows (more + 1)) :
    printer.remaining ≠ some 0 :=
  fun used => Nat.not_succ_le_zero more (allows 0 used)

theorem step_value (standsAt : printer.StandsAt sequence count)
    (remaining : printer.remaining ≠ some 0)
    (isValue : sequence.reference count = .ok (some value)) :
    printer.step.pieces = printer.piecesOf value ∧ printer.step.next = some printer.after := by
  have outcome := standsAt.outcome
  rw [isValue, mapError_ok] at outcome
  rw [step, if_neg remaining, after]
  cases isPull : printer.iterator.pull with
  | mk pull iterator =>
    rw [isPull] at outcome
    dsimp only at outcome ⊢
    rw [outcome]
    exact ⟨rfl, rfl⟩

theorem step_end (standsAt : printer.StandsAt sequence count)
    (stops : printer.remaining = some 0 ∨ sequence.reference count = .ok none) :
    printer.step.pieces = [.ok "\n"] ∧ printer.step.next = none := by
  by_cases used : printer.remaining = some 0
  · rw [step, if_pos used]
    exact ⟨rfl, rfl⟩
  · have outcome := standsAt.outcome
    rw [stops.resolve_left used, mapError_ok] at outcome
    rw [step, if_neg used]
    cases isPull : printer.iterator.pull with
    | mk pull iterator =>
      rw [isPull] at outcome
      dsimp only at outcome ⊢
      rw [outcome]
      exact ⟨rfl, rfl⟩

theorem eq_after_of_next {next : Printer} (isNext : printer.step.next = some next) :
    next = printer.after ∧ ∃ value, printer.step.pieces = printer.piecesOf value := by
  by_cases used : printer.remaining = some 0
  · rw [step, if_pos used] at isNext
    cases isNext
  · rw [step, if_neg used] at isNext ⊢
    rw [after]
    cases isPull : printer.iterator.pull with
    | mk pull iterator =>
      rw [isPull] at isNext
      cases outcome : pull.outcome with
      | error cause =>
        simp only [outcome] at isNext
        cases isNext
      | ok element =>
        cases element with
        | none =>
          simp only [outcome] at isNext
          cases isNext
        | some value =>
          simp only [outcome, Option.some.injEq] at isNext
          exact ⟨isNext.symm, value, by simp only [outcome]; rfl⟩

theorem step_events (remaining : printer.remaining ≠ some 0) :
    printer.step.events = printer.iterator.pull.1.events printer.iterator.sequence := by
  rw [step, if_neg remaining]
  cases printer.iterator.pull with
  | mk pull iterator =>
    dsimp only
    split <;> rfl

/-! ## Runs -/

/-- What a run leaves at the outlet, and the fault that ended it. -/
def leaves (fuel : Nat) (printer : Printer) (outlet : Outlet) : Option (Outlet × Option Fault) :=
  (printer.run fuel outlet).map fun printed => (printed.outlet, printed.fault)

theorem leaves_fault {rest : Outlet} {fault : Fault} (fuel : Nat)
    (written : outlet.writeAll printer.step.pieces = (rest, some fault)) :
    leaves (fuel + 1) printer outlet = some (rest, some fault) := by
  rw [leaves, run]
  simp only [written, Option.map_some]

theorem leaves_done {rest : Outlet} (fuel : Nat)
    (written : outlet.writeAll printer.step.pieces = (rest, none))
    (done : printer.step.next = none) :
    leaves (fuel + 1) printer outlet = some (rest, none) := by
  rw [leaves, run]
  simp only [written, done, Option.map_some]

theorem leaves_next {rest : Outlet} {next : Printer} (fuel : Nat)
    (written : outlet.writeAll printer.step.pieces = (rest, none))
    (isNext : printer.step.next = some next) :
    leaves (fuel + 1) printer outlet = leaves fuel next rest := by
  rw [leaves, run]
  simp only [written, isNext, Option.map_map]
  rfl

section Values

variable {separator : String} {values : List Number} {shown : Number → String}

/-- What is written with values that the printer prints one after the other. -/
def piecesFrom : Printer → List Number → List (Except Fault String)
  | _, [] => []
  | printer, value :: values => printer.piecesOf value ++ printer.after.piecesFrom values

/-- A run that has values in front of it writes all their pieces before it goes on, or ends with the
first of these that cannot be written. -/
theorem leaves_values (fuel : Nat) (standsAt : printer.StandsAt sequence count)
    (gives : sequence.Gives count values) (allows : printer.Allows values.length) :
    leaves (fuel + values.length) printer outlet =
      match outlet.writeAll (printer.piecesFrom values) with
      | (rest, none) => leaves fuel (after^[values.length] printer) rest
      | (rest, some fault) => some (rest, some fault) := by
  induction values generalizing printer outlet count with
  | nil => rfl
  | cons value values inductionHypothesis =>
    obtain ⟨pieces, next⟩ := step_value standsAt allows.remaining_ne gives.head
    rw [List.length_cons, ← Nat.add_assoc, piecesFrom, Outlet.writeAll_append]
    cases written : outlet.writeAll (printer.piecesOf value) with
    | mk rest outcome =>
      rw [← pieces] at written
      cases outcome with
      | some fault => exact leaves_fault _ written
      | none =>
        rw [leaves_next _ written next]
        exact inductionHypothesis standsAt.after gives.tail allows.after

theorem leaves_end (fuel : Nat) (standsAt : printer.StandsAt sequence count)
    (stops : printer.remaining = some 0 ∨ sequence.reference count = .ok none) :
    leaves (fuel + 1) printer outlet = some (outlet.writeAll [.ok "\n"]) := by
  obtain ⟨pieces, next⟩ := step_end standsAt stops
  cases written : outlet.writeAll [.ok "\n"] with
  | mk rest outcome =>
    rw [← pieces] at written
    cases outcome with
    | none => exact leaves_done fuel written next
    | some fault => exact leaves_fault fuel written

theorem piecesFrom_later (later : printer.first = false) (values : List Number) :
    printer.piecesFrom values =
      values.flatMap fun value => [printer.separatorPiece, value.printed.mapError .number] := by
  induction values generalizing printer with
  | nil => rfl
  | cons value values inductionHypothesis =>
    have others : printer.after.piecesFrom values = _ := inductionHypothesis rfl
    rw [piecesFrom, others, piecesOf, later, if_neg Bool.false_ne_true]
    rfl

theorem piecesFrom_cons (isFirst : printer.first = true) (value : Number) (values : List Number) :
    printer.piecesFrom (value :: values) =
      value.printed.mapError .number ::
        values.flatMap fun value => [printer.separatorPiece, value.printed.mapError .number] := by
  have others : printer.after.piecesFrom values = _ := piecesFrom_later rfl values
  rw [piecesFrom, others, piecesOf, isFirst, if_pos rfl]
  rfl

theorem piecesFrom_eq_intercalate (isFirst : printer.first = true)
    (separates : printer.separator = some separator) (values : List Number) :
    printer.piecesFrom values =
      [.ok separator].intercalate
        (values.map fun value => [value.printed.mapError .number]) := by
  cases values with
  | nil => rfl
  | cons value values =>
    have isPiece : printer.separatorPiece = .ok separator := by rw [separatorPiece, separates]
    rw [piecesFrom_cons isFirst, isPiece]
    induction values generalizing value with
    | nil => rfl
    | cons next values inductionHypothesis =>
      have later := inductionHypothesis next
      rw [List.map_cons] at later
      rw [List.map_cons, List.map_cons, List.intercalate_cons_cons, ← later]
      rfl

theorem join_separated (separator : String) (shown : Number → String) (values : List Number) :
    String.join (values.flatMap fun value => [separator, shown value]) =
      behind separator (values.map shown) := by
  induction values with
  | nil => rfl
  | cons value values inductionHypothesis =>
    rw [List.flatMap_cons, List.cons_append, List.cons_append, List.nil_append, String.join_cons,
      String.join_cons, inductionHypothesis, List.map_cons, behind_cons, String.append_assoc]

/-- Values that have a text are written with separators between them as long as the reader waits. -/
theorem writeAll_piecesFrom (isFirst : printer.first = true)
    (separates : 1 < values.length → printer.separator = some separator)
    (printed : ∀ value ∈ values, value.printed = .ok (shown value))
    (waits : outlet.Waits (separator.intercalate (values.map shown))) :
    outlet.writeAll (printer.piecesFrom values) =
      (outlet.append (separator.intercalate (values.map shown)), none) := by
  cases values with
  | nil =>
    rw [List.map_nil, String.intercalate_nil, Outlet.append_empty]
    rfl
  | cons value values =>
    have joined :
        String.join (shown value :: values.flatMap fun other => [separator, shown other]) =
          separator.intercalate ((value :: values).map shown) := by
      rw [String.join_cons, join_separated, List.map_cons, intercalate_cons]
    have pieces : printer.piecesFrom (value :: values) =
        (shown value :: values.flatMap fun other => [separator, shown other]).map .ok := by
      rw [piecesFrom_cons isFirst, printed value List.mem_cons_self, List.map_cons,
        List.map_flatMap]
      refine congrArg _ (List.flatMap_congr fun other member => ?_)
      have several : 1 < (value :: values).length :=
        Nat.succ_lt_succ (List.length_pos_of_mem member)
      rw [separatorPiece, separates several, printed other (List.mem_cons_of_mem value member)]
      rfl
    rw [← joined] at waits ⊢
    rw [pieces]
    exact Outlet.writeAll_ok _ waits

end Values

/-! ## Behind the values -/

theorem standsAt_iterate (standsAt : printer.StandsAt sequence 0) (more : Nat) :
    (after^[more] printer).StandsAt sequence more := by
  induction more with
  | zero => exact standsAt
  | succ more inductionHypothesis =>
    rw [Function.iterate_succ_apply']
    exact inductionHypothesis.after

theorem remaining_iterate (printer : Printer) (more : Nat) :
    (after^[more] printer).remaining = printer.remaining.map (· - more) := by
  induction more with
  | zero => simp
  | succ more inductionHypothesis =>
    rw [Function.iterate_succ_apply', after, inductionHypothesis, Option.map_map]
    rfl

theorem remaining_iterate_ne {more : Nat} (allows : printer.Allows (more + 1)) :
    (after^[more] printer).remaining ≠ some 0 := by
  intro used
  rw [remaining_iterate] at used
  obtain ⟨remaining, isRemaining, none⟩ := Option.map_eq_some_iff.mp used
  have enough := allows remaining isRemaining
  omega

theorem separator_iterate (printer : Printer) (more : Nat) :
    (after^[more] printer).separator = printer.separator := by
  induction more with
  | zero => rfl
  | succ more inductionHypothesis =>
    rw [Function.iterate_succ_apply']
    exact inductionHypothesis

theorem piecesOf_iterate (printer : Printer) (more : Nat) (value : Number) :
    (after^[more + 1] printer).piecesOf value =
      [printer.separatorPiece, value.printed.mapError .number] := by
  have later : (after^[more + 1] printer).first = false := by
    rw [Function.iterate_succ_apply']
    rfl
  rw [piecesOf, later, if_neg Bool.false_ne_true, separatorPiece, separator_iterate]
  rfl

/-! ## Pulls -/

/-- How often a run of so many steps moves the iterator. -/
def pulled : Nat → Printer → Outlet → Nat
  | 0, _, _ => 0
  | fuel + 1, printer, outlet =>
    if printer.remaining = some 0 then 0
    else
      match outlet.writeAll printer.step.pieces, printer.step.next with
      | (outlet, none), some next => pulled fuel next outlet + 1
      | _, _ => 1

/-- A run moves the iterator in its first step unless nothing remains, and goes on from there only
if all pieces of a value were written. -/
theorem pulled_cases (fuel : Nat) (printer : Printer) (outlet : Outlet) :
    (printer.remaining = some 0 ∧ pulled (fuel + 1) printer outlet = 0) ∨
      (printer.remaining ≠ some 0 ∧ (pulled (fuel + 1) printer outlet = 1 ∨
        ∃ rest value, outlet.writeAll (printer.piecesOf value) = (rest, none) ∧
          pulled (fuel + 1) printer outlet = pulled fuel printer.after rest + 1)) := by
  by_cases used : printer.remaining = some 0
  · left
    rw [pulled, if_pos used]
    exact ⟨used, rfl⟩
  · right
    refine ⟨used, ?_⟩
    rw [pulled, if_neg used]
    split
    · next rest next written isNext =>
      obtain ⟨rfl, value, pieces⟩ := eq_after_of_next isNext
      rw [pieces] at written
      exact .inr ⟨rest, value, written, rfl⟩
    · exact .inl rfl

theorem pulled_le_remaining {remaining : Nat} (fuel : Nat)
    (isRemaining : printer.remaining = some remaining) :
    pulled fuel printer outlet ≤ remaining := by
  induction fuel generalizing printer outlet remaining with
  | zero => exact Nat.zero_le _
  | succ fuel inductionHypothesis =>
    obtain ⟨-, notMoved⟩ | ⟨left, once | ⟨rest, value, -, further⟩⟩ :=
      pulled_cases fuel printer outlet
    · rw [notMoved]
      exact Nat.zero_le _
    · rw [isRemaining, Ne, Option.some.injEq] at left
      omega
    · rw [isRemaining, Ne, Option.some.injEq] at left
      have fewer : printer.after.remaining = some (remaining - 1) := by
        rw [after, isRemaining, Option.map_some]
      have later : pulled fuel printer.after rest ≤ remaining - 1 := inductionHypothesis fewer
      omega

def lineEndsBefore (printer : Printer) (outlet : Outlet) : Nat :=
  Outlet.lineEnds outlet.written + if printer.first then 0 else 1

theorem lineEndsBefore_of_written {patience : Nat} {rest : Outlet}
    (expects : outlet.patience = some patience) (isLines : printer.separator = some "\n")
    (written : outlet.writeAll (printer.piecesOf value) = (rest, none)) :
    rest.patience = some patience ∧ printer.lineEndsBefore outlet < patience ∧
      printer.lineEndsBefore outlet ≤ Outlet.lineEnds rest.written := by
  rw [lineEndsBefore]
  cases isFirst : printer.first with
  | true =>
    rw [piecesOf, isFirst, if_pos rfl] at written
    exact Outlet.lineEnds_of_written expects written
  | false =>
    rw [piecesOf, isFirst, if_neg Bool.false_ne_true, separatorPiece, isLines] at written
    obtain ⟨piece, -, others, isPiece⟩ := Outlet.exists_of_writeAll written
    cases isPiece
    have further : rest.patience = some patience ∧
        Outlet.lineEnds (outlet.append "\n").written < patience ∧
          Outlet.lineEnds (outlet.append "\n").written ≤ Outlet.lineEnds rest.written :=
      Outlet.lineEnds_of_written expects others
    rw [Outlet.append, Outlet.lineEnds_append] at further
    exact further

theorem pulled_le_patience {patience : Nat} (fuel : Nat)
    (expects : outlet.patience = some patience) (isLines : printer.separator = some "\n") :
    pulled fuel printer outlet ≤ patience - printer.lineEndsBefore outlet + 1 := by
  -- Each step that goes on leaves one more line end, and the reader waited behind it.
  induction fuel generalizing printer outlet with
  | zero => exact Nat.zero_le _
  | succ fuel inductionHypothesis =>
    obtain ⟨-, notMoved⟩ | ⟨-, once | ⟨rest, value, written, further⟩⟩ :=
      pulled_cases fuel printer outlet
    · omega
    · omega
    · obtain ⟨expectsLater, waited, more⟩ := lineEndsBefore_of_written expects isLines written
      have lineEnd : printer.after.lineEndsBefore rest = Outlet.lineEnds rest.written + 1 := rfl
      have later : pulled fuel printer.after rest ≤
          patience - printer.after.lineEndsBefore rest + 1 :=
        inductionHypothesis expectsLater isLines
      omega

theorem isSome_run_of_pulled_lt {fuel : Nat} (fewer : pulled fuel printer outlet < fuel) :
    (printer.run fuel outlet).isSome = true := by
  induction fuel generalizing printer outlet with
  | zero => exact absurd fewer (Nat.not_lt_zero _)
  | succ fuel inductionHypothesis =>
    rw [run]
    split
    · rfl
    · next rest written =>
      cases isNext : printer.step.next with
      | none => rfl
      | some next =>
        have left : printer.remaining ≠ some 0 := by
          intro used
          rw [step, if_pos used] at isNext
          cases isNext
        rw [pulled, if_neg left, written, isNext] at fewer
        simp only [Option.isSome_map]
        exact inductionHypothesis (Nat.lt_of_succ_lt_succ fewer)

/-- The moves of a run are those that report its events. -/
theorem events_eq_pulls {fuel : Nat} {printed : Printed}
    (runs : printer.run fuel outlet = some printed) :
    printed.events = (printer.iterator.pulls (pulled fuel printer outlet)).1.flatMap
      (·.events printer.iterator.sequence) := by
  induction fuel generalizing printer outlet printed with
  | zero => cases runs
  | succ fuel inductionHypothesis =>
    by_cases used : printer.remaining = some 0
    · have ends : printer.step = ⟨[.ok "\n"], none, []⟩ := by rw [step, if_pos used]
      rw [pulled, if_pos used]
      rw [run, ends] at runs
      dsimp only at runs
      split at runs <;> cases runs <;> rfl
    · have events := step_events used
      rw [pulled, if_neg used]
      rw [run] at runs
      cases written : outlet.writeAll printer.step.pieces with
      | mk rest fault =>
        rw [written] at runs
        cases fault with
        | some fault =>
          cases runs
          simpa [Iterator.pulls] using events
        | none =>
          cases isNext : printer.step.next with
          | none =>
            rw [isNext] at runs
            cases runs
            simpa [Iterator.pulls] using events
          | some next =>
            rw [isNext] at runs
            obtain ⟨later, runsLater, rfl⟩ := Option.map_eq_some_iff.mp runs
            obtain ⟨rfl, -⟩ := eq_after_of_next isNext
            have others := inductionHypothesis runsLater
            simp only [Iterator.pulls, List.flatMap_cons, events, others]
            rfl

end Printer

end CommandLine

end Progressions
