import Mathlib.Data.Stream.Init

/-!
# Runs of a partial step function

A deterministic system with inputs: `step e s` is the state after input `e`, or
`none` when the system stops there for good.  A run feeds a list of inputs from
left to right.  Every safety argument about a whole run is one of the rules
below applied to a lemma about a single step.
-/

namespace Runs

variable {Input State : Type*} (step : Input → State → Option State)

/-- Feed the inputs one after another; `none` once a step stops the system. -/
def run : List Input → State → Option State
  | [], state => some state
  | input :: rest, state => (step input state).bind (run rest)

@[simp] theorem run_nil (state : State) : run step [] state = some state := rfl

theorem run_cons (input : Input) (rest : List Input) (state : State) :
    run step (input :: rest) state = (step input state).bind (run step rest) := rfl

theorem run_append (first second : List Input) (state : State) :
    run step (first ++ second) state = (run step first state).bind (run step second) := by
  induction first generalizing state with
  | nil => rfl
  | cons input rest ih =>
    simp only [List.cons_append, run_cons]
    cases step input state with
    | none => rfl
    | some next => simpa using ih next

/-- **A run is decided by running it**: whether it ends in a state of some kind. -/
instance decidableExistsSome {Value : Type*} (outcome : Option Value) (Holds : Value → Prop)
    [DecidablePred Holds] : Decidable (∃ value, outcome = some value ∧ Holds value) :=
  match outcome with
  | none => isFalse fun ⟨_, hvalue, _⟩ => nomatch hvalue
  | some value => decidable_of_iff (Holds value) (by simp)

variable {step}

theorem run_cons_eq_some {input : Input} {rest : List Input} {state final : State} :
    run step (input :: rest) state = some final ↔
      ∃ next, step input state = some next ∧ run step rest next = some final := by
  rw [run_cons, Option.bind_eq_some_iff]

theorem run_singleton (input : Input) (state : State) :
    run step [input] state = step input state := by
  rw [run_cons]
  cases step input state <;> rfl

theorem run_append_eq_some {first second : List Input} {state final : State} :
    run step (first ++ second) state = some final ↔
      ∃ middle, run step first state = some middle ∧ run step second middle = some final := by
  rw [run_append, Option.bind_eq_some_iff]

/-- **The invariant rule.**  What every admitted step preserves holds at the end
of every run of admitted inputs. -/
theorem run_invariant {Admitted : Input → Prop} {Inv : State → Prop}
    (preserves : ∀ input state next, Admitted input → Inv state →
      step input state = some next → Inv next)
    {inputs : List Input} {state final : State} (admitted : ∀ input ∈ inputs, Admitted input)
    (start : Inv state) (hrun : run step inputs state = some final) : Inv final := by
  induction inputs generalizing state with
  | nil =>
    obtain rfl : state = final := by simpa using hrun
    exact start
  | cons input rest ih =>
    obtain ⟨next, hstep, hrest⟩ := run_cons_eq_some.mp hrun
    have hnext : Inv next := preserves input state next (admitted input (by simp)) start hstep
    exact ih (fun e he => admitted e (by simp [he])) hnext hrest

/-- A reflexive and transitive relation that every admitted step keeps between
its two states relates the two ends of every run, as long as the invariant that
the step lemma needs is kept as well. -/
theorem run_relation {Admitted : Input → Prop} {Inv : State → Prop}
    {Rel : State → State → Prop} (hrefl : ∀ state, Rel state state)
    (htrans : ∀ a b c, Rel a b → Rel b c → Rel a c)
    (preserves : ∀ input state next, Admitted input → Inv state →
      step input state = some next → Inv next ∧ Rel state next)
    {inputs : List Input} {state final : State} (admitted : ∀ input ∈ inputs, Admitted input)
    (start : Inv state) (hrun : run step inputs state = some final) :
    Inv final ∧ Rel state final := by
  induction inputs generalizing state with
  | nil =>
    obtain rfl : state = final := by simpa using hrun
    exact ⟨start, hrefl _⟩
  | cons input rest ih =>
    obtain ⟨next, hstep, hrest⟩ := run_cons_eq_some.mp hrun
    obtain ⟨hnext, hrel⟩ := preserves input state next (admitted input (by simp)) start hstep
    obtain ⟨hfinal, hrel'⟩ := ih (fun e he => admitted e (by simp [he])) hnext hrest
    exact ⟨hfinal, htrans _ _ _ hrel hrel'⟩

/-! ## What a run leaves on record -/

section Record

variable {Observation : Type*} (step) (observe : Input → State → List Observation)

/-- Everything that is observed along a run. -/
def gather : List Input → State → List Observation
  | [], _ => []
  | input :: rest, state =>
    observe input state ++ ((step input state).map (gather rest)).getD []

/-- Every input is admitted in the state that it meets. -/
def Along (Admitted : Input → State → Prop) : List Input → State → Prop
  | [], _ => True
  | input :: rest, state =>
    Admitted input state ∧ ∀ next, step input state = some next → Along Admitted rest next

variable {step observe}

/-- **The invariant rule with a record.**  What every admitted step keeps of the
state and the record so far holds of the end of a run and its whole record. -/
theorem run_gather {Admitted : Input → State → Prop} {Inv : List Observation → State → Prop}
    (preserves : ∀ past input state next, Admitted input state → Inv past state →
      step input state = some next → Inv (past ++ observe input state) next)
    {inputs : List Input} {past : List Observation} {state final : State}
    (admitted : Along step Admitted inputs state) (start : Inv past state)
    (hrun : run step inputs state = some final) :
    Inv (past ++ gather step observe inputs state) final := by
  induction inputs generalizing past state with
  | nil =>
    obtain rfl : state = final := by simpa using hrun
    simpa [gather] using start
  | cons input rest ih =>
    obtain ⟨next, hstep, hrest⟩ := run_cons_eq_some.mp hrun
    have hnext := preserves past input state next admitted.1 start hstep
    have hfinal := ih (admitted.2 next hstep) hnext hrest
    rw [List.append_assoc] at hfinal
    simpa [gather, hstep] using hfinal

end Record

/-! ## Runs with inputs from outside -/

section Inputs

variable {Action : Type*} (act : Input → Action → State → Option State)

/-- Carry out the actions one after another, each with the next input. -/
def runWith : List Action → Stream' Input → State → Option State
  | [], _, state => some state
  | action :: rest, inputs, state =>
    (act inputs.head action state).bind (runWith rest inputs.tail)

/-- Whatever inputs are given, every action goes through and the end is as it
should be. -/
def Ensures (Given : Input → Prop) (Post : State → Prop) : List Action → State → Prop
  | [], state => Post state
  | action :: rest, state =>
    ∀ input, Given input → ∃ next, act input action state = some next ∧ Ensures Given Post rest next

variable {act} {Given : Input → Prop} {Post : State → Prop}

theorem ensures_append {first second : List Action} {state : State} :
    Ensures act Given Post (first ++ second) state ↔
      Ensures act Given (Ensures act Given Post second) first state := by
  induction first generalizing state with
  | nil => rfl
  | cons action rest ih => simp only [List.cons_append, Ensures, ih]

theorem Ensures.mono {Post' : State → Prop} {actions : List Action} {state : State}
    (h : Ensures act Given Post actions state) (hpost : ∀ state, Post state → Post' state) :
    Ensures act Given Post' actions state := by
  induction actions generalizing state with
  | nil => exact hpost state h
  | cons action rest ih =>
    intro input hinput
    obtain ⟨next, hnext, hrest⟩ := h input hinput
    exact ⟨next, hnext, ih hrest⟩

theorem Ensures.runWith {actions : List Action} {state : State}
    (h : Ensures act Given Post actions state) {inputs : Stream' Input}
    (hinputs : ∀ n, Given (inputs.get n)) :
    ∃ final, runWith act actions inputs state = some final ∧ Post final := by
  induction actions generalizing state inputs with
  | nil => exact ⟨state, rfl, h⟩
  | cons action rest ih =>
    obtain ⟨next, hnext, hrest⟩ := h inputs.head (hinputs 0)
    have htail : ∀ n, Given (inputs.tail.get n) := fun n => hinputs (n + 1)
    obtain ⟨final, hfinal, hpost⟩ := ih hrest htail
    exact ⟨final, by rw [Runs.runWith, hnext, Option.bind_some, hfinal], hpost⟩

end Inputs

end Runs
