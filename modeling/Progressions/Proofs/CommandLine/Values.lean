import Mathlib.Data.ENat.Lattice
import Progressions.Proofs.CommandLine.Arguments
import Progressions.Proofs.CommandLine.Printing
import Progressions.Proofs.CommandLine.Rejection
import Progressions.Proofs.Stream.Selection

/-!
# Values on the command line

A specification is printed as the values that the limit selects, with the separator between them and
a line end behind the last.  With line ends between them, a reader that hangs up has every line it
waited for and nothing else, and is no failure.
-/

set_option autoImplicit false

namespace Progressions.CommandLine

/-- The printer of a sequence from its start, up to a limit. -/
def Printer.ofLimit (sequence : Sequence) (limit : Int) (separator : Option String) : Printer :=
  ⟨.ofSequence sequence, if 0 < limit then some limit.toNat else none, separator, true⟩

/-- How often a run moves its iterator within so many steps. -/
def pulls (fuel : Nat) (arguments : List String) (patience : Option Nat) : Nat :=
  match Invocation.ofArguments arguments with
  | .run source settings =>
    if settings.describe then 0
    else
      match printer source settings with
      | .error _ => 0
      | .ok printer => printer.pulled fuel ⟨"", patience⟩
  | _ => 0

/-! ## From arguments to a printer -/

section Invoked

variable {source : String} {sequence : Sequence} {limit : Int} {separator : Option String}
  {arguments : List String}

theorem printer_ofLimit (accepted : Iterator.ofText source = .ok (.ofSequence sequence))
    (size : limit.natAbs < 2 ^ 63) (separator : Option String) :
    printer source ⟨false, some limit, separator, false⟩ =
      .ok (.ofLimit sequence limit separator) := by
  have below : ¬ limitCeiling ≤ limit := by
    have ceiling : limitCeiling = 2 ^ 63 := rfl
    omega
  rw [printer, accepted]
  dsimp only
  rw [if_neg below]
  rfl

variable (accepted : Iterator.ofText source = .ok (.ofSequence sequence))
  (size : limit.natAbs < 2 ^ 63)
  (invoked : Invocation.ofArguments arguments = .run source ⟨false, some limit, separator, false⟩)

include accepted size invoked

theorem run_ofLimit (fuel : Nat) (patience : Option Nat) :
    run fuel arguments patience =
      ((Printer.ofLimit sequence limit separator).leaves fuel ⟨"", patience⟩).map fun left =>
        ⟨printedStatus left.2, left.1.written, ""⟩ := by
  rw [run, invoked]
  dsimp only
  rw [if_neg Bool.false_ne_true, printAll, printer_ofLimit accepted size separator, Printer.leaves,
    Option.map_map]
  rfl

theorem pulls_ofLimit (fuel : Nat) (patience : Option Nat) :
    pulls fuel arguments patience =
      (Printer.ofLimit sequence limit separator).pulled fuel ⟨"", patience⟩ := by
  rw [pulls, invoked]
  dsimp only
  rw [if_neg Bool.false_ne_true, printer_ofLimit accepted size separator]

end Invoked

/-! ## What is left at the outlet -/

namespace Printer

variable {sequence : Sequence} {limit : Int} {separator : String} {separator? : Option String}
  {outlet : Outlet} {values : List Number} {shown : Number → String}

theorem standsAt_ofLimit (sequence : Sequence) (limit : Int) (separator? : Option String) :
    (ofLimit sequence limit separator?).StandsAt sequence 0 :=
  ⟨rfl, .replaying (Nat.zero_le _)⟩

theorem allows_ofLimit {count : Nat} (allowed : 0 < limit → (count : Int) ≤ limit) :
    (ofLimit sequence limit separator?).Allows count := by
  intro remaining isRemaining
  rw [ofLimit] at isRemaining
  dsimp only at isRemaining
  split_ifs at isRemaining with positive
  · have enough := allowed positive
    cases isRemaining
    omega
  · cases isRemaining

theorem allowed_of_le {few many : Nat} (allowed : 0 < limit → (many : Int) ≤ limit)
    (fewer : few ≤ many) : 0 < limit → (few : Int) ≤ limit := by
  intro positive
  have enough := allowed positive
  omega

theorem notMem_of_shown (clean : ∀ value, '\n' ∉ (shown value).toList) :
    ∀ text ∈ values.map shown, '\n' ∉ text.toList := by
  intro text member
  obtain ⟨value, -, rfl⟩ := List.mem_map.mp member
  exact clean value

section Values

variable (yields : sequence.Yields values)

include yields

theorem step_ofLimit {front : Nat} (within : front < values.length)
    (allowed : 0 < limit → ((front + 1 : Nat) : Int) ≤ limit) :
    (after^[front] (ofLimit sequence limit separator?)).step.pieces =
      (after^[front] (ofLimit sequence limit separator?)).piecesOf values[front] :=
  (step_value (standsAt_iterate (standsAt_ofLimit sequence limit separator?) front)
    (remaining_iterate_ne (allows_ofLimit allowed)) (Sequence.reference_of_yields yields within)).1

theorem gives_of_yields : sequence.Gives 0 values := by
  intro place inside
  rw [Nat.zero_add]
  exact Sequence.reference_of_yields yields inside

theorem leaves_selected (selected : IsExtent (sequence.Selects limit) values.length)
    {fuel : Nat} (enough : values.length < fuel) :
    leaves fuel (ofLimit sequence limit separator?) outlet =
      some (outlet.writeAll
        ((ofLimit sequence limit separator?).piecesFrom values ++ [.ok "\n"])) := by
  obtain ⟨further, rfl⟩ := Nat.exists_eq_add_of_lt enough
  have standsAt := standsAt_ofLimit sequence limit separator?
  have allowed := Sequence.allowed_of_le selected (Nat.cast_le.mpr (Nat.le_refl values.length))
  have stops : (after^[values.length] (ofLimit sequence limit separator?)).remaining = some 0 ∨
      sequence.reference values.length = .ok none := by
    refine (Sequence.selected_stops yields selected).imp_left fun ⟨positive, all⟩ => ?_
    rw [remaining_iterate, ofLimit, if_pos positive, Option.map_some]
    congr 1
    omega
  have back (rest : Outlet) : leaves (further + 1) _ rest = _ :=
    leaves_end further (standsAt_iterate standsAt values.length) stops
  have front : leaves (further + 1 + values.length) _ outlet = _ :=
    leaves_values (further + 1) standsAt (gives_of_yields yields) (allows_ofLimit allowed)
  rw [Nat.add_assoc, Nat.add_comm, front, Outlet.writeAll_append]
  split
  · exact back _
  · rfl

/-- A run of a printer and the values written at once leave the same. -/
theorem leaves_writeValues (selected : IsExtent (sequence.Selects limit) values.length)
    {fuel : Nat} (enough : values.length < fuel) :
    leaves fuel (ofLimit sequence limit (some separator)) ⟨"", none⟩ =
      some (writeValues values separator) := by
  rw [leaves_selected yields selected enough, piecesFrom_eq_intercalate rfl rfl]
  rfl

variable (printed : ∀ value ∈ values, value.printed = .ok (shown value))

include printed

theorem leaves_take {front : Nat} (within : front ≤ values.length)
    (allowed : 0 < limit → (front : Int) ≤ limit)
    (separates : 1 < front → separator? = some separator)
    (waits : outlet.Waits (separator.intercalate ((values.take front).map shown))) (fuel : Nat) :
    leaves (fuel + front) (ofLimit sequence limit separator?) outlet =
      leaves fuel (after^[front] (ofLimit sequence limit separator?))
        (outlet.append (separator.intercalate ((values.take front).map shown))) := by
  have length : (values.take front).length = front := List.length_take_of_le within
  have runs : leaves (fuel + (values.take front).length) _ outlet = _ :=
    leaves_values fuel (standsAt_ofLimit sequence limit separator?)
      ((gives_of_yields yields).take front) (allows_ofLimit (by rw [length]; exact allowed))
  rw [length, writeAll_piecesFrom rfl (by rw [length]; exact separates)
    (fun value member => printed value (List.mem_of_mem_take member)) waits] at runs
  exact runs

theorem leaves_printed (selected : IsExtent (sequence.Selects limit) values.length)
    (separates : 1 < values.length → separator? = some separator)
    (waits : outlet.Waits (separator.intercalate (values.map shown)))
    {fuel : Nat} (enough : values.length < fuel) :
    leaves fuel (ofLimit sequence limit separator?) outlet =
      some (outlet.append (separator.intercalate (values.map shown) ++ "\n"), none) := by
  have isFirst : (ofLimit sequence limit separator?).first = true := rfl
  rw [leaves_selected yields selected enough, Outlet.writeAll_append,
    writeAll_piecesFrom isFirst separates printed waits]
  dsimp only
  rw [Outlet.writeAll_open (Outlet.closed_append waits), Outlet.append_append]
  rfl

theorem leaves_separatorMissing (allowed : 0 < limit → (values.length : Int) ≤ limit)
    (several : 1 < values.length) {fuel : Nat} (enough : 1 < fuel) :
    leaves fuel (ofLimit sequence limit none) ⟨"", none⟩ =
      some (⟨(values.map shown).headD "", none⟩, some .separatorMissing) := by
  obtain ⟨further, rfl⟩ := Nat.exists_eq_add_of_lt enough
  have isFirst : "".intercalate ((values.take 1).map shown) = (values.map shown).headD "" := by
    cases values with
    | nil => rfl
    | cons value values => exact String.intercalate_singleton
  have waits : Outlet.Waits ⟨"", none⟩ ("".intercalate ((values.take 1).map shown)) := by
    intro patience expected
    cases expected
  have front : leaves (further + 1 + 1) (ofLimit sequence limit none) ⟨"", none⟩ = _ :=
    leaves_take yields printed (Nat.le_of_lt several)
      (allowed_of_le allowed (Nat.le_of_lt several))
      (fun two => absurd two (Nat.lt_irrefl 1)) waits (further + 1)
  have pieces : (after^[1] (ofLimit sequence limit none)).step.pieces = _ :=
    step_ofLimit yields several (allowed_of_le allowed several)
  rw [piecesOf_iterate] at pieces
  rw [Nat.add_assoc, Nat.add_comm, front, isFirst]
  refine leaves_fault further ?_
  rw [pieces]
  rfl

theorem leaves_lines (selected : IsExtent (sequence.Selects limit) values.length)
    (clean : ∀ value, '\n' ∉ (shown value).toList) {patience : Nat}
    (within : values.length ≤ patience) {fuel : Nat} (enough : values.length < fuel) :
    leaves fuel (ofLimit sequence limit (some "\n")) ⟨"", some patience⟩ =
      some (⟨lines (values.map shown), some patience⟩, none) := by
  have positive : 0 < values.length := Nat.cast_le.mp (Sequence.one_le_selected selected)
  have nonempty : values.map shown ≠ [] := by
    rw [Ne, List.map_eq_nil_iff]
    exact List.ne_nil_of_length_pos positive
  have waits : Outlet.Waits ⟨"", some patience⟩ ("\n".intercalate (values.map shown)) := by
    refine Outlet.waits_of_length_le nonempty (notMem_of_shown clean) ?_
    rw [List.length_map]
    exact within
  rw [leaves_printed yields printed selected (fun _ => rfl) waits enough,
    Outlet.append_lines nonempty]

theorem leaves_brokenPipe (clean : ∀ value, '\n' ∉ (shown value).toList) {patience : Nat}
    (past : patience < values.length)
    (allowed : 0 < limit → ((patience + 1 : Nat) : Int) ≤ limit)
    {fuel : Nat} (enough : patience < fuel) :
    leaves fuel (ofLimit sequence limit (some "\n")) ⟨"", some patience⟩ =
      some (⟨lines ((values.take patience).map shown), some patience⟩, some .brokenPipe) := by
  obtain ⟨further, rfl⟩ := Nat.exists_eq_add_of_lt enough
  have isText := printed values[patience] (List.getElem_mem past)
  have next : (after^[patience] (ofLimit sequence limit (some "\n"))).step.pieces = _ :=
    step_ofLimit yields past allowed
  cases patience with
  | zero =>
    -- Nothing stands in front of the first value, so the value itself finds no reader.
    have single : (ofLimit sequence limit (some "\n")).piecesOf values[0] =
        [.ok (shown values[0])] := by
      rw [piecesOf, isText]
      rfl
    rw [Function.iterate_zero_apply] at next
    rw [Nat.zero_add]
    refine leaves_fault further ?_
    rw [next, single]
    exact Outlet.writeAll_closed rfl []
  | succ fewer =>
    -- The line end in front of the value is the last thing the reader waits for.
    have count : ((values.take (fewer + 1)).map shown).length = fewer + 1 := by
      rw [List.length_map, List.length_take_of_le (Nat.le_of_lt past)]
    have nonempty := List.ne_nil_of_length_eq_add_one count
    have cleanTexts : ∀ text ∈ (values.take (fewer + 1)).map shown, '\n' ∉ text.toList :=
      notMem_of_shown clean
    have waits := Outlet.waits_of_length_le nonempty cleanTexts (Nat.le_of_eq count)
    have front : leaves (further + 1 + (fewer + 1)) (ofLimit sequence limit (some "\n"))
        ⟨"", some (fewer + 1)⟩ = _ :=
      leaves_take yields printed (Nat.le_of_lt past)
        (allowed_of_le allowed (Nat.le_succ (fewer + 1))) (fun _ => rfl) waits (further + 1)
    have written := Outlet.writeAll_past_lines nonempty cleanTexts (shown values[fewer + 1])
    rw [piecesOf_iterate, isText] at next
    rw [count] at written
    rw [Nat.add_assoc, Nat.add_comm, front]
    refine leaves_fault further ?_
    rw [next]
    exact written

end Values

end Printer

/-! ## Runs -/

def listing (limit : Int) (options : List String) (source : String) : List String :=
  attached "--limit" (toString limit) :: options ++ ["--", source]

section Runs

variable {source : String} {sequence : Sequence} {limit : Int}

theorem writable_of_size (size : limit.natAbs < 2 ^ 63) : (Number.int limit).writable = true := by
  have ceiling : 2 ^ 63 ≤ Number.digitCeiling := by decide +kernel
  rw [Number.writable, decide_eq_true_eq]
  exact Nat.lt_of_lt_of_le size ceiling

theorem pulled_le_limit (sequence : Sequence) (positive : 0 < limit) (separator? : Option String)
    (fuel : Nat) (outlet : Outlet) :
    (Printer.ofLimit sequence limit separator?).pulled fuel outlet ≤ limit.toNat := by
  refine Printer.pulled_le_remaining fuel ?_
  rw [Printer.ofLimit, if_pos positive]

/-- The values that the limit selects are printed with the separator between them.  Only a separator
that is spelled like the terminator is lost, and then a second value is not printed. -/
theorem run_prints_selected (accepted : Iterator.ofText source = .ok (.ofSequence sequence))
    (size : limit.natAbs < 2 ^ 63) (separator : String) :
    (∀ values, sequence.Yields values → IsExtent (sequence.Selects limit) values.length →
      (∀ value ∈ values, ∀ whole ∈ value.whole?, (Number.int whole).writable = true) →
      ∃ texts, values.mapM Number.printed = .ok texts ∧
        ∀ fuel > values.length,
          run fuel (listing limit [attached "--separator" separator] source) none =
            some (if separator = terminator ∧ 1 < values.length then
                ⟨.error .separatorMissing, texts.headD "", ""⟩
              else ⟨.ok 0, separator.intercalate texts ++ "\n", ""⟩)) ∧
      (0 < limit → ∀ fuel,
        pulls fuel (listing limit [attached "--separator" separator] source) none ≤ limit.toNat ∧
          (limit.toNat < fuel →
            (run fuel (listing limit [attached "--separator" separator] source) none).isSome)) := by
  have invoked := ofArguments_limit_separator (writable_of_size size) source separator
  have runs (fuel : Nat) := run_ofLimit accepted size invoked fuel none
  constructor
  · intro values yields selected short
    have printed : ∀ value ∈ values, value.printed = .ok value.shown := fun value member =>
      Number.printed_of_short (short value member)
    refine ⟨values.map Number.shown, mapM_eq_ok_map printed, fun fuel enough => ?_⟩
    refine (runs fuel).trans ?_
    have allowed := Sequence.allowed_of_le selected (Nat.cast_le.mpr (Nat.le_refl values.length))
    split_ifs with lost
    · obtain ⟨rfl, several⟩ := lost
      have missing := Printer.leaves_separatorMissing yields printed allowed several
        (Nat.lt_trans several enough)
      rw [separatorOf, if_pos rfl, missing]
      rfl
    · have separates : 1 < values.length → separatorOf separator = some separator := fun several =>
        if_neg fun isTerminator => lost ⟨isTerminator, several⟩
      have waits : Outlet.Waits ⟨"", none⟩ (separator.intercalate (values.map Number.shown)) := by
        intro patience expected
        cases expected
      rw [Printer.leaves_printed yields printed selected separates waits enough]
      simp only [Option.map_some, printedStatus, okStatus, Outlet.append, String.empty_append]
  · intro positive fuel
    have few := pulled_le_limit sequence positive (separatorOf separator) fuel ⟨"", none⟩
    refine ⟨?_, fun enough => ?_⟩
    · refine (Nat.le_of_eq ?_).trans few
      exact pulls_ofLimit accepted size invoked fuel none
    · have ends := Printer.isSome_run_of_pulled_lt (Nat.lt_of_le_of_lt few enough)
      refine (congrArg Option.isSome (runs fuel)).trans ?_
      rw [Option.isSome_map, Printer.leaves, Option.isSome_map]
      exact ends

def powersOfThree : Sequence :=
  ⟨[1, 3, 9].map .int, some ⟨.geometric, .float (Binary64.ofInt 3), none⟩, List.cons_ne_nil _ _⟩

def fivePowers : List Number :=
  [1, 3, 9].map .int ++ [27, 81].map (.float ∘ Binary64.ofInt)

theorem run_prints_selected_powersOfThree :
    Iterator.ofText "1,3,9,..." = .ok (.ofSequence powersOfThree) ∧
      (5 : Int).natAbs < 2 ^ 63 ∧
      (∀ fuel > 5, run fuel ["--limit=5", "--separator=,", "--", "1,3,9,..."] none =
        some ⟨.ok 0, "1,3,9,27,81\n", ""⟩) ∧
      ∀ fuel, pulls fuel ["--limit=5", "--separator=,", "--", "1,3,9,..."] none ≤ 5 := by
  have accepted : Iterator.ofText "1,3,9,..." = .ok (.ofSequence powersOfThree) :=
    congrArg (Except.map Iterator.ofSequence)
      (by decide +kernel : Sequence.ofText "1,3,9,..." = .ok powersOfThree)
  have size : (5 : Int).natAbs < 2 ^ 63 := by decide
  have arguments : listing 5 [attached "--separator" ","] "1,3,9,..." =
      ["--limit=5", "--separator=,", "--", "1,3,9,..."] := by decide +kernel
  have yields : powersOfThree.Yields fivePowers := by
    unfold Sequence.Yields
    decide +kernel
  have selected : IsExtent (powersOfThree.Selects 5) fivePowers.length :=
    Sequence.isExtent_of_limit yields (by decide) rfl
  have known : fivePowers.mapM Number.printed = .ok ["1", "3", "9", "27", "81"] := by
    decide +kernel
  obtain ⟨prints, stops⟩ := run_prints_selected accepted size ","
  rw [arguments] at prints stops
  obtain ⟨texts, printed, runs⟩ := prints fivePowers yields selected (by decide +kernel)
  rw [known] at printed
  cases printed
  refine ⟨accepted, size, fun fuel enough => ?_, fun fuel => (stops (by decide) fuel).1⟩
  have joined : ",".intercalate ["1", "3", "9", "27", "81"] ++ "\n" = "1,3,9,27,81\n" := by
    decide +kernel
  rw [runs fuel enough, if_neg (by decide +kernel), joined]

def oneToThree : Sequence := ⟨[1, 2, 3].map .int, none, List.cons_ne_nil _ _⟩

/-- Not every separator is printed between the values: one that is spelled like the terminator ends
the run in a fault behind the first of them. -/
theorem not_every_separator_printed :
    ¬ ∀ (source : String) (sequence : Sequence) (limit : Int) (separator : String)
        (values : List Number) (texts : List String),
      Iterator.ofText source = .ok (.ofSequence sequence) → limit.natAbs < 2 ^ 63 →
      sequence.Yields values → IsExtent (sequence.Selects limit) values.length →
      values.mapM Number.printed = .ok texts → ∀ fuel > values.length,
        run fuel (listing limit [attached "--separator" separator] source) none =
          some ⟨.ok 0, separator.intercalate texts ++ "\n", ""⟩ := by
  intro prints
  have accepted : Iterator.ofText "1,2,3" = .ok (.ofSequence oneToThree) :=
    congrArg (Except.map Iterator.ofSequence)
      (by decide +kernel : Sequence.ofText "1,2,3" = .ok oneToThree)
  have size : (5 : Int).natAbs < 2 ^ 63 := by decide
  have yields : oneToThree.Yields ([1, 2, 3].map .int) := by
    unfold Sequence.Yields
    decide +kernel
  have selected : IsExtent (oneToThree.Selects 5) ([1, 2, 3].map Number.int).length :=
    Sequence.isExtent_of_end yields rfl (by decide)
  have promised := prints "1,2,3" oneToThree 5 "--" _ ["1", "2", "3"] accepted size yields selected
    (by decide +kernel) 4 (by decide)
  have invoked := ofArguments_limit_separator (writable_of_size size) "1,2,3" "--"
  have printed : ∀ value ∈ [1, 2, 3].map Number.int, value.printed = .ok value.shown := by
    decide +kernel
  have missing := Printer.leaves_separatorMissing yields printed
    (Sequence.allowed_of_le selected (Nat.cast_le.mpr (Nat.le_refl _))) (by decide)
    (by decide : 1 < 4)
  have happens := run_ofLimit accepted size invoked 4 none
  rw [separatorOf, if_pos (by decide +kernel), missing] at happens
  have same := promised.symm.trans happens
  cases same

/-- A reader that hangs up has the lines that it waited for, as far as there are values, and the run
ends as if it had read on. -/
theorem run_hangs_up (accepted : Iterator.ofText source = .ok (.ofSequence sequence))
    (size : limit.natAbs < 2 ^ 63) (patience : Nat) :
    (∀ extent values, IsExtent (sequence.Selects limit) extent → sequence.Yields values →
      (values.length : ℕ∞) = min ((patience + 1 : Nat) : ℕ∞) extent →
      (∀ value ∈ values, ∃ text, value.printed = .ok text) →
      ∃ texts, values.mapM Number.printed = .ok texts ∧
        ∀ fuel > patience, run fuel (listing limit [] source) (some patience) =
          some ⟨.ok 0, lines (texts.take patience), ""⟩) ∧
      ∀ fuel, pulls fuel (listing limit [] source) (some patience) ≤ patience + 1 := by
  have invoked := ofArguments_limit (writable_of_size size) source
  have runs (fuel : Nat) := run_ofLimit accepted size invoked fuel (some patience)
  constructor
  · intro extent values selected yields length writes
    have printed : ∀ value ∈ values, value.printed = .ok value.shown := by
      intro value member
      obtain ⟨text, isText⟩ := writes value member
      exact Number.shown_of_printed isText
    refine ⟨values.map Number.shown, mapM_eq_ok_map printed, fun fuel enough => ?_⟩
    refine (runs fuel).trans ?_
    have within : (values.length : ℕ∞) ≤ extent := length ▸ min_le_right _ _
    have bounded : values.length ≤ patience + 1 := Nat.cast_le.mp (length ▸ min_le_left _ _)
    have allowed := Sequence.allowed_of_le selected within
    rcases Nat.lt_or_eq_of_le bounded with fewer | past
    · have isExtent : (values.length : ℕ∞) = extent := by
        rcases min_choice ((patience + 1 : Nat) : ℕ∞) extent with isPatience | isExtent
        · exact absurd (Nat.cast_inj.mp (length.trans isPatience)) (Nat.ne_of_lt fewer)
        · exact length.trans isExtent
      rw [← isExtent] at selected
      have fits := Nat.le_of_lt_succ fewer
      have enoughSteps := Nat.lt_of_le_of_lt fits enough
      rw [Printer.leaves_lines yields printed selected Number.newline_notMem_shown fits enoughSteps,
        List.take_of_length_le (by rw [List.length_map]; exact fits)]
      rfl
    · have several : patience < values.length := past ▸ Nat.lt_succ_self patience
      rw [past] at allowed
      have hungUp := Printer.leaves_brokenPipe yields printed Number.newline_notMem_shown several
        allowed enough
      rw [hungUp, List.map_take]
      rfl
  · intro fuel
    refine (Nat.le_of_eq (pulls_ofLimit accepted size invoked fuel (some patience))).trans ?_
    exact Printer.pulled_le_patience fuel rfl rfl

theorem run_hangs_up_naturals :
    Iterator.ofText "1,2,3,...,Inf" = .ok (.ofSequence .naturals) ∧ (0 : Int).natAbs < 2 ^ 63 ∧
      IsExtent (Sequence.naturals.Selects 0) ⊤ ∧
      (∀ fuel > 2, run fuel ["--limit=0", "--", "1,2,3,...,Inf"] (some 2) =
        some ⟨.ok 0, "1\n2\n", ""⟩) ∧
      ∀ fuel, pulls fuel ["--limit=0", "--", "1,2,3,...,Inf"] (some 2) ≤ 3 := by
  have accepted : Iterator.ofText "1,2,3,...,Inf" = .ok (.ofSequence .naturals) :=
    congrArg (Except.map Iterator.ofSequence) Sequence.ofText_naturals
  have size : (0 : Int).natAbs < 2 ^ 63 := by decide
  have arguments : listing 0 [] "1,2,3,...,Inf" = ["--limit=0", "--", "1,2,3,...,Inf"] := by
    decide +kernel
  have yields : Sequence.naturals.Yields ([1, 2, 3].map .int) := by
    unfold Sequence.Yields
    decide +kernel
  have selected : IsExtent (Sequence.naturals.Selects 0) ⊤ :=
    Sequence.isExtent_of_endless
      (Sequence.endless_of_countsToInfinity Sequence.naturals_countsToInfinity) (Int.le_refl 0)
  have known : ([1, 2, 3].map Number.int).mapM Number.printed = .ok ["1", "2", "3"] := by
    decide +kernel
  obtain ⟨prints, few⟩ := run_hangs_up accepted size 2
  rw [arguments] at prints few
  obtain ⟨texts, printed, runs⟩ := prints ⊤ _ selected yields (min_eq_left le_top).symm
    (by
      intro value member
      obtain ⟨whole, isListed, rfl⟩ := List.mem_map.mp member
      exact ⟨_, Number.printed_int ((by decide +kernel :
        ∀ listed ∈ [1, 2, 3], (Number.int listed).writable = true) whole isListed)⟩)
  rw [known] at printed
  cases printed
  have shown : lines (["1", "2", "3"].take 2) = "1\n2\n" := by decide +kernel
  refine ⟨accepted, size, selected, fun fuel enough => ?_, few⟩
  rw [runs fuel enough, shown]

end Runs

end Progressions.CommandLine
