import Mathlib.Data.List.Basic
import Progressions.Proofs.Stream.Continuation
import Progressions.Stream.Registry

/-!
# Scripts over named iterators

A script works with many iterators in any order.  An iterator only moves by the questions asked
under its own name, so what it hands out in a script, taken together, is an initial segment of the
stream that its sequence has alone.

`HandedOut` ties a state to the values that came out of it so far.  A question keeps that up, with
the values of its reply added (`answer_handedOut`), commands on other names do not touch it
(`run_frame`), and a script is a run of such steps.
-/

set_option autoImplicit false

namespace Progressions

namespace Sequence

/-- The values are the whole stream: behind them there is nothing, for ever. -/
def Ends (sequence : Sequence) (values : List Number) : Prop :=
  ∀ further, sequence.outcomes (values.length + further) =
    values.map (.ok ∘ some) ++ List.replicate further (.ok none)

def Next (sequence : Sequence) (values : List Number) : Option Number → Prop
  | none => sequence.Ends values
  | some value => sequence.Yields (values ++ [value])

/-- The state that a fresh one becomes while it hands out the values, and finds their end any
number of times if they are the whole stream. -/
inductive HandedOut (sequence : Sequence) (values : List Number) (state : Stream.State) : Prop
  | going (stands : Stands sequence values.length state) (yields : sequence.Yields values)
  | ended (idle : Nat) (stands : Stands sequence (values.length + idle) state)
      (ends : sequence.Ends values)

variable {sequence : Sequence} {values : List Number} {state : Stream.State}

theorem outcomes_add (sequence : Sequence) (count further : Nat) :
    sequence.outcomes (count + further) = sequence.outcomes count ++
      (List.range further).map fun place =>
        (sequence.reference (count + place)).mapError .number := by
  rw [outcomes_eq_reference, outcomes_eq_reference, List.range_add, List.map_append, List.map_map]
  rfl

theorem Ends.yields (ends : sequence.Ends values) : sequence.Yields values := by
  have given := ends 0
  rw [Nat.add_zero, List.replicate_zero, List.append_nil] at given
  exact given

theorem reference_of_ends (ends : sequence.Ends values) (idle : Nat) :
    sequence.reference (values.length + idle) = .ok none := by
  have given := ends (idle + 1)
  rw [← Nat.add_assoc, outcomes_succ, ends idle, List.replicate_succ', ← List.append_assoc]
    at given
  have last := List.head_eq_of_cons_eq (List.append_inj_right given rfl)
  exact mapError_eq_ok_iff.mp last

theorem ends_of_reference (yields : sequence.Yields values)
    (nothing : sequence.reference values.length = .ok none) : sequence.Ends values := by
  intro further
  rw [outcomes_add, yields]
  simp [nothing_stays nothing, List.map_const']

theorem yields_snoc (yields : sequence.Yields values) {value : Number}
    (given : sequence.reference values.length = .ok (some value)) :
    sequence.Yields (values ++ [value]) := by
  rw [Yields, List.length_append, List.length_singleton, outcomes_succ, yields, given]
  simp

theorem HandedOut.yields (handedOut : HandedOut sequence values state) :
    sequence.Yields values := by
  cases handedOut with
  | going stands yields => exact yields
  | ended idle stands ends => exact ends.yields

theorem length_le_of_ends {all : List Number} (ends : sequence.Ends all)
    (yields : sequence.Yields values) : values.length ≤ all.length := by
  apply Nat.le_of_not_lt
  intro within
  have given := reference_of_yields yields within
  have nothing := reference_of_ends ends 0
  rw [Nat.add_zero, given] at nothing
  cases nothing

theorem eq_of_yields {others : List Number} (yields : sequence.Yields values)
    (yieldsOthers : sequence.Yields others) (sameLength : values.length = others.length) :
    values = others := by
  apply List.ext_getElem sameLength
  intro place within withinOthers
  have given := reference_of_yields yields within
  rw [reference_of_yields yieldsOthers withinOthers] at given
  exact (Option.some.inj (Except.ok.inj given)).symm

theorem handedOut_fresh (sequence : Sequence) : HandedOut sequence [] .fresh :=
  .going (.replaying (Nat.zero_le _)) rfl

def moved (values : List Number) (element : Option Number) : List Number :=
  values ++ element.toList

/-- A move that does not fail gives what comes next in the stream, and it is handed out then. -/
theorem advance_handedOut (handedOut : HandedOut sequence values state) :
    (∃ cause, (state.advance sequence).outcome = .error cause) ∨
      ∃ element, (state.advance sequence).outcome = .ok element ∧
        sequence.Next values element ∧
          HandedOut sequence (moved values element) (state.advance sequence).state := by
  cases handedOut with
  | ended idle stands ends =>
    obtain ⟨gave, standsAfter⟩ := advance_stands stands
    rw [reference_of_ends ends] at gave
    refine .inr ⟨none, gave, ends, ?_⟩
    rw [moved, Option.toList_none, List.append_nil]
    exact .ended (idle + 1) standsAfter ends
  | going stands yields =>
    obtain ⟨gave, standsAfter⟩ := advance_stands stands
    cases here : sequence.reference values.length with
    | error cause =>
      rw [here] at gave
      exact .inl ⟨_, gave⟩
    | ok element =>
      rw [here] at gave
      refine .inr ⟨element, gave, ?_⟩
      cases element with
      | none =>
        have ends := ends_of_reference yields here
        refine ⟨ends, ?_⟩
        rw [moved, Option.toList_none, List.append_nil]
        exact .ended 1 standsAfter ends
      | some value =>
        have yieldsAfter := yields_snoc yields here
        refine ⟨yieldsAfter, .going ?_ yieldsAfter⟩
        rw [moved, Option.toList_some, List.length_append, List.length_singleton]
        exact standsAfter

theorem take_succ (count : Nat) (iterator : Iterator) :
    iterator.take (count + 1) =
      match iterator.pull.1.outcome with
      | .error cause => (.error cause, iterator.pull.2)
      | .ok none => (.ok [], iterator.pull.2)
      | .ok (some value) =>
        ((iterator.pull.2.take count).1.map (value :: ·), (iterator.pull.2.take count).2) := by
  rw [Iterator.take]
  rcases iterator.pull with ⟨⟨outcome, state, foundEnd⟩, after⟩
  rcases outcome with cause | none | value
  · rfl
  · rfl
  · rfl

theorem take_handedOut (count : Nat) (handedOut : HandedOut sequence values state) :
    (∃ cause, (Iterator.take count ⟨sequence, state⟩).1 = .error cause) ∨
      ∃ taken after, Iterator.take count ⟨sequence, state⟩ = (.ok taken, ⟨sequence, after⟩) ∧
        HandedOut sequence (values ++ taken) after ∧ taken.length ≤ count ∧
          (taken.length < count → sequence.Ends (values ++ taken)) := by
  induction count generalizing values state with
  | zero =>
    refine .inr ⟨[], state, rfl, ?_, Nat.le_refl 0, ?_⟩
    · rw [List.append_nil]
      exact handedOut
    · intro short
      simp at short
  | succ count inductionHypothesis =>
    rcases advance_handedOut handedOut with ⟨cause, failed⟩ | ⟨element, gave, next, handedAfter⟩
    · left
      refine ⟨cause, ?_⟩
      simp [take_succ, Iterator.pull, failed]
    · cases element with
      | none =>
        rw [moved, Option.toList_none] at handedAfter
        refine .inr ⟨[], _, ?_, handedAfter, Nat.zero_le _, ?_⟩
        · simp [take_succ, Iterator.pull, gave]
        · intro _
          rw [List.append_nil]
          exact next
      | some value =>
        rcases inductionHypothesis handedAfter with
          ⟨cause, failed⟩ | ⟨taken, after, took, handedLater, short, ended⟩
        · left
          refine ⟨cause, ?_⟩
          simp [take_succ, Iterator.pull, gave, failed, Except.map]
        · rw [moved, Option.toList_some, List.append_assoc, List.singleton_append]
            at handedLater ended
          refine .inr ⟨value :: taken, after, ?_, handedLater, Nat.succ_le_succ short, ?_⟩
          · simp [take_succ, Iterator.pull, gave, took, Except.map]
          · intro shorter
            rw [List.length_cons] at shorter
            apply ended
            omega

end Sequence

/-! ## Questions and replies -/

def Reply.values : Except Fault Reply → List Number
  | .ok (.value (some number)) => [number]
  | .ok (.numbers listed) => listed
  | _ => []

def Reply.stepFailed : Except Fault Reply → Bool
  | .error (.stream _) => true
  | _ => false

/-- What a reply has to be when the values were handed out before.  A call gives what comes next,
and asking for the next value is a fault exactly where a call gives none: at the end.  What is taken
goes on with the stream, and is less than the count only at its end; and draining gives all that is
left of a stream whose rest fits into the budget. -/
def Sequence.Replies (sequence : Sequence) (budget : Nat) (values : List Number)
    (reply : Except Fault Reply) : Ask → Prop
  | .call => ∃ element, sequence.Next values element ∧ reply = .ok (.value element)
  | .next => ∃ element, sequence.Next values element ∧
      reply = match element with
        | none => .error .endOfStream
        | some value => .ok (.value (some value))
  | .take count => ∃ taken, reply = .ok (.numbers taken) ∧ sequence.Yields (values ++ taken) ∧
      taken.length ≤ count ∧ (taken.length < count → sequence.Ends (values ++ taken))
  | .drain => ∃ taken, reply = .ok (.numbers taken) ∧ sequence.Yields (values ++ taken) ∧
      ∀ all, sequence.Ends all → all.length ≤ values.length + budget → values ++ taken = all
  | .iteratesItself => reply = .ok (.truth true)
  | .exhausted | .display | .sequence => True

section Questions

variable {sequence : Sequence} {values : List Number} {state : Stream.State} {budget : Nat}

theorem answer_handedOut (handedOut : Sequence.HandedOut sequence values state) (question : Ask)
    (unfailing : Reply.stepFailed (Iterator.answer ⟨sequence, state⟩ budget question).1 = false) :
    ∃ after, (Iterator.answer ⟨sequence, state⟩ budget question).2 = ⟨sequence, after⟩ ∧
      Sequence.HandedOut sequence
        (values ++ Reply.values (Iterator.answer ⟨sequence, state⟩ budget question).1) after ∧
      sequence.Replies budget values (Iterator.answer ⟨sequence, state⟩ budget question).1
        question := by
  -- Some questions do not move the iterator, and their replies hand out nothing.
  have still (reply : Except Fault Reply) (nothing : Reply.values reply = []) :
      Sequence.HandedOut sequence (values ++ Reply.values reply) state := by
    rw [nothing, List.append_nil]
    exact handedOut
  cases question with
  | call =>
    rcases Sequence.advance_handedOut handedOut with
      ⟨cause, failed⟩ | ⟨element, gave, next, handedAfter⟩
    · simp [Iterator.answer, Iterator.pull, failed, Except.map, Reply.stepFailed] at unfailing
    · have replied : (Iterator.answer ⟨sequence, state⟩ budget .call).1 =
          .ok (.value element) := by
        simp [Iterator.answer, Iterator.pull, gave, Except.map]
      rw [replied]
      refine ⟨_, rfl, ?_, element, next, rfl⟩
      cases element <;> exact handedAfter
  | next =>
    rcases Sequence.advance_handedOut handedOut with
      ⟨cause, failed⟩ | ⟨element, gave, next, handedAfter⟩
    · simp [Iterator.answer, Iterator.pull, failed, Reply.stepFailed] at unfailing
    · cases element with
      | none =>
        have replied : Iterator.answer ⟨sequence, state⟩ budget .next =
            (.error .endOfStream, ⟨sequence, (state.advance sequence).state⟩) := by
          simp [Iterator.answer, Iterator.pull, gave]
        rw [replied]
        exact ⟨_, rfl, handedAfter, none, next, rfl⟩
      | some value =>
        have replied : Iterator.answer ⟨sequence, state⟩ budget .next =
            (.ok (.value (some value)), ⟨sequence, (state.advance sequence).state⟩) := by
          simp [Iterator.answer, Iterator.pull, gave]
        rw [replied]
        exact ⟨_, rfl, handedAfter, some value, next, rfl⟩
  | take count =>
    rcases Sequence.take_handedOut count handedOut with
      ⟨cause, failed⟩ | ⟨taken, after, took, handedAfter, short, ended⟩
    · simp [Iterator.answer, failed, Except.map, Reply.stepFailed] at unfailing
    · have replied : Iterator.answer ⟨sequence, state⟩ budget (.take count) =
          (.ok (.numbers taken), ⟨sequence, after⟩) := by
        simp [Iterator.answer, took, Except.map]
      rw [replied]
      exact ⟨after, rfl, handedAfter, taken, rfl, handedAfter.yields, short, ended⟩
  | drain =>
    rcases Sequence.take_handedOut budget handedOut with
      ⟨cause, failed⟩ | ⟨taken, after, took, handedAfter, short, ended⟩
    · simp [Iterator.answer, failed, Except.map, Reply.stepFailed] at unfailing
    · have replied : Iterator.answer ⟨sequence, state⟩ budget .drain =
          (.ok (.numbers taken), ⟨sequence, after⟩) := by
        simp [Iterator.answer, took, Except.map]
      rw [replied]
      have yields := handedAfter.yields
      refine ⟨after, rfl, handedAfter, taken, rfl, yields, ?_⟩
      intro all ends enough
      have short := Sequence.length_le_of_ends ends yields
      apply Sequence.eq_of_yields yields ends.yields
      by_cases early : taken.length < budget
      · have long := Sequence.length_le_of_ends (ended early) ends.yields
        omega
      · rw [List.length_append] at short ⊢
        omega
  | iteratesItself => exact ⟨state, rfl, still _ rfl, rfl⟩
  | exhausted => exact ⟨state, rfl, still _ rfl, trivial⟩
  | sequence => exact ⟨state, rfl, still _ rfl, trivial⟩
  | display =>
    refine ⟨state, rfl, still _ ?_, trivial⟩
    rw [Iterator.answer]
    cases Iterator.display ⟨sequence, state⟩ <;> rfl

end Questions

/-! ## Scripts -/

def Command.asks (name : String) : Command → Bool
  | .ask asked _ => asked == name
  | _ => false

def Command.makes (name : String) : Command → Bool
  | .create made _ => made == name
  | .share made _ => made == name
  | .ask _ _ => false

namespace Registry

def transcript (registry : Registry) (budget : Nat) (script : List Command) :
    List (Command × Except Fault Reply) :=
  script.zip (registry.runAll budget script)

def handed (name : String) (entry : Command × Except Fault Reply) : List Number :=
  if entry.1.asks name then Reply.values entry.2 else []

/-- What has been handed out under a name, in the order of the script. -/
def handedOut (name : String) (transcript : List (Command × Except Fault Reply)) : List Number :=
  transcript.flatMap (handed name)

/-- The command puts a new iterator over the sequence under the name: that of a text, or that of
another iterator. -/
inductive Starts (registry : Registry) (name : String) (sequence : Sequence) : Command → Prop
  | create {source : String} (read : Sequence.ofText source = .ok sequence) :
    Starts registry name sequence (.create name source)
  | share {other : String} {iterator : Iterator} (found : registry.find? other = some iterator)
      (same : iterator.sequence = sequence) :
    Starts registry name sequence (.share name other)

variable {registry : Registry} {name : String} {sequence : Sequence} {budget : Nat}

theorem transcript_cons (registry : Registry) (budget : Nat) (command : Command)
    (script : List Command) :
    registry.transcript budget (command :: script) =
      (command, (registry.run budget command).1) ::
        (registry.run budget command).2.transcript budget script := rfl

theorem find?_bind_self (registry : Registry) (name : String) (iterator : Iterator) :
    (registry.bind name iterator).find? name = some iterator := by
  induction registry with
  | nil => simp [bind, find?]
  | cons entry rest inductionHypothesis =>
    obtain ⟨other, kept⟩ := entry
    by_cases same : other = name
    · simp [bind, find?, same]
    · rw [find?] at inductionHypothesis ⊢
      have different : (name == other) = false := by
        simpa using Ne.symm same
      simp [bind, same, List.lookup_cons, different, inductionHypothesis]

theorem find?_bind_of_ne {other : String} (different : other ≠ name) (registry : Registry)
    (iterator : Iterator) : (registry.bind other iterator).find? name = registry.find? name := by
  have apart : (name == other) = false := by
    simpa using Ne.symm different
  induction registry with
  | nil => simp [bind, find?, List.lookup_cons, apart]
  | cons entry rest inductionHypothesis =>
    obtain ⟨first, kept⟩ := entry
    by_cases same : first = other
    · subst same
      simp [bind, find?, List.lookup_cons, apart]
    · rw [find?, find?] at inductionHypothesis
      simp [bind, find?, same, List.lookup_cons, inductionHypothesis]

/-- A command that neither asks the iterator of a name nor puts a new one there does not touch
it. -/
theorem run_frame (registry : Registry) (budget : Nat) {command : Command}
    (notAsked : command.asks name = false)
    (kept : command.makes name = true → (registry.run budget command).1.isOk = false) :
    (registry.run budget command).2.find? name = registry.find? name := by
  cases command with
  | create made source =>
    cases read : Iterator.ofText source with
    | error fault => simp [run, read]
    | ok iterator =>
      have different : made ≠ name := by
        intro same
        have refused := kept (by simp [Command.makes, same])
        simp [run, read, Except.isOk, Except.toBool] at refused
      simp only [run, read]
      exact find?_bind_of_ne different registry iterator
  | share made other =>
    cases found : registry.find? other with
    | none => simp [run, found]
    | some iterator =>
      have different : made ≠ name := by
        intro same
        have refused := kept (by simp [Command.makes, same])
        simp [run, found, Except.isOk, Except.toBool] at refused
      simp only [run, found]
      exact find?_bind_of_ne different registry _
  | ask asked question =>
    have different : asked ≠ name := by
      simpa [Command.asks] using notAsked
    cases found : registry.find? asked with
    | none => simp [run, found]
    | some iterator =>
      simp only [run, found]
      exact find?_bind_of_ne different registry _

theorem run_ask {iterator : Iterator} (found : registry.find? name = some iterator)
    (budget : Nat) (question : Ask) :
    registry.run budget (.ask name question) =
      ((iterator.answer budget question).1,
        registry.bind name (iterator.answer budget question).2) := by
  simp only [run, found]

theorem find?_of_starts {creation : Command} (starts : Starts registry name sequence creation)
    (budget : Nat) :
    (registry.run budget creation).2.find? name = some ⟨sequence, .fresh⟩ := by
  cases starts with
  | create read =>
    simp only [run, Iterator.ofText, read, Except.map]
    exact find?_bind_self registry name _
  | share found same =>
    subst same
    simp only [run, found]
    exact find?_bind_self registry name _

section Life

/-- Nothing else is put under the name, and no step of its iterator fails. -/
structure Undisturbed (name : String) (entry : Command × Except Fault Reply) : Prop where
  kept : entry.1.makes name = true → entry.2.isOk = false
  unfailing : entry.1.asks name = true → Reply.stepFailed entry.2 = false

instance (name : String) : DecidablePred (Undisturbed name) := fun entry =>
  decidable_of_iff ((entry.1.makes name = true → entry.2.isOk = false) ∧
      (entry.1.asks name = true → Reply.stepFailed entry.2 = false))
    ⟨fun ⟨kept, unfailing⟩ => ⟨kept, unfailing⟩, fun undisturbed => ⟨undisturbed.1, undisturbed.2⟩⟩

variable {values : List Number} {state : Stream.State}

theorem run_handedOut (found : registry.find? name = some ⟨sequence, state⟩)
    (handedOut : Sequence.HandedOut sequence values state) (command : Command)
    (undisturbed : Undisturbed name (command, (registry.run budget command).1)) :
    ∃ after, (registry.run budget command).2.find? name = some ⟨sequence, after⟩ ∧
      Sequence.HandedOut sequence
        (values ++ handed name (command, (registry.run budget command).1)) after ∧
      ∀ question, command = .ask name question →
        sequence.Replies budget values (registry.run budget command).1 question := by
  obtain ⟨kept, unfailing⟩ := undisturbed
  cases asks : command.asks name with
  | false =>
    refine ⟨state, ?_, ?_, ?_⟩
    · rw [run_frame registry budget asks kept]
      exact found
    · simpa [handed, asks] using handedOut
    · rintro question rfl
      simp [Command.asks] at asks
  | true =>
    cases command with
    | create made source => cases asks
    | share made other => cases asks
    | ask asked question =>
      obtain rfl : asked = name := by simpa [Command.asks] using asks
      have ran := run_ask found budget question
      rw [ran] at unfailing ⊢
      obtain ⟨after, moved, handedAfter, replies⟩ :=
        answer_handedOut handedOut question (unfailing asks)
      refine ⟨after, ?_, ?_, ?_⟩
      · rw [moved]
        exact find?_bind_self registry asked _
      · simpa [handed, asks] using handedAfter
      · intro same isAsked
        cases isAsked
        exact replies

/-- A script keeps the iterator of a name in step with what it has handed out. -/
theorem transcript_handedOut (found : registry.find? name = some ⟨sequence, state⟩)
    (handedOut : Sequence.HandedOut sequence values state) (script : List Command)
    (undisturbed : ∀ entry ∈ registry.transcript budget script, Undisturbed name entry) :
    sequence.Yields (values ++ Registry.handedOut name (registry.transcript budget script)) ∧
      ∀ front question reply back,
        registry.transcript budget script = front ++ (.ask name question, reply) :: back →
          sequence.Replies budget (values ++ Registry.handedOut name front) reply question := by
  induction script generalizing registry values state with
  | nil =>
    constructor
    · simpa [transcript, Registry.handedOut] using handedOut.yields
    · intro front question reply back shape
      simp [transcript] at shape
  | cons command script inductionHypothesis =>
    rw [transcript_cons] at undisturbed ⊢
    obtain ⟨after, foundAfter, handedAfter, replies⟩ :=
      run_handedOut found handedOut command (undisturbed _ List.mem_cons_self)
    have later := inductionHypothesis foundAfter handedAfter fun entry member =>
      undisturbed entry (List.mem_cons_of_mem _ member)
    obtain ⟨yields, repliesLater⟩ := later
    constructor
    · rw [Registry.handedOut, List.flatMap_cons, ← List.append_assoc]
      exact yields
    · intro front question reply back shape
      cases front with
      | nil =>
        rw [List.nil_append] at shape
        obtain ⟨entry, -⟩ := List.cons.inj shape
        obtain ⟨rfl, rfl⟩ := Prod.mk.inj entry
        rw [Registry.handedOut, List.flatMap_nil, List.append_nil]
        exact replies question rfl
      | cons first front =>
        rw [List.cons_append] at shape
        obtain ⟨rfl, shapeLater⟩ := List.cons.inj shape
        rw [Registry.handedOut, List.flatMap_cons, ← List.append_assoc]
        exact repliesLater front question reply back shapeLater

end Life

/-- Whatever a script does with other names, an iterator that was just put under a name replies to
every question from the stream of its own sequence, at the place where the replies before left off;
so what it hands out is an initial segment of that stream. -/
theorem scripts_follow_streams {creation : Command}
    (starts : Starts registry name sequence creation) (budget : Nat) (script : List Command)
    (undisturbed : ∀ entry ∈ (registry.run budget creation).2.transcript budget script,
      Undisturbed name entry) :
    sequence.Yields (handedOut name ((registry.run budget creation).2.transcript budget script)) ∧
      ∀ front question reply back,
        (registry.run budget creation).2.transcript budget script =
            front ++ (.ask name question, reply) :: back →
          sequence.Replies budget (handedOut name front) reply question := by
  have found := find?_of_starts starts budget
  exact transcript_handedOut found (Sequence.handedOut_fresh sequence) script undisturbed

/-- Two, one, zero and minus one: zero is a value like the others. -/
def countdown : Sequence :=
  ⟨[.int 2, .int 1, .int 0], some ⟨.arithmetic, .int (-1), some (.int (-1))⟩, List.cons_ne_nil _ _⟩

def turns : List Command :=
  [.share "b" "a", .ask "a" .call, .ask "b" .next, .ask "a" (.take 1), .ask "b" .drain,
    .ask "a" .iteratesItself, .ask "a" .next, .ask "b" .next, .ask "a" (.take 5), .ask "a" .next,
    .ask "a" .call]

theorem scripts_follow_streams_in_turns :
    Starts [] "a" countdown (.create "a" "2,1,0,...,-1") ∧
      (∀ entry ∈ (run [] 9 (.create "a" "2,1,0,...,-1")).2.transcript 9 turns,
        Undisturbed "a" entry) ∧
      countdown.Yields ([2, 1, 0, -1].map .int) ∧
      ∀ front question reply back,
        (run [] 9 (.create "a" "2,1,0,...,-1")).2.transcript 9 turns =
            front ++ (.ask "a" question, reply) :: back →
          countdown.Replies 9 (handedOut "a" front) reply question := by
  have starts : Starts [] "a" countdown (.create "a" "2,1,0,...,-1") :=
    .create (by decide +kernel)
  have undisturbed : ∀ entry ∈ (run [] 9 (.create "a" "2,1,0,...,-1")).2.transcript 9 turns,
      Undisturbed "a" entry := by
    decide +kernel
  have handed : handedOut "a" ((run [] 9 (.create "a" "2,1,0,...,-1")).2.transcript 9 turns) =
      [2, 1, 0, -1].map .int := by
    decide +kernel
  have follows := scripts_follow_streams starts 9 turns undisturbed
  rw [handed] at follows
  exact ⟨starts, undisturbed, follows⟩

end Registry

end Progressions
