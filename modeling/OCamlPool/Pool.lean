import OCamlPool.Runtime.Header

/-!
# `ocamlpool.c`

The library as its one C file has it: the two statics `ocamlpool_in_section` and
`ocamlpool_sane_young_ptr`, the checks `abort_unless`, `ocamlpool_assert`, `assert_in_section`
and `assert_out_of_section`, and the entry points `ocamlpool_enter`, `ocamlpool_leave` and
`ocamlpool_reserve_block`. A process is a `Machine`: the two statics and the part of the runtime
the library reads or writes (`Runtime`). Every entry point maps a machine to the machine it leaves
or to an `Abort`, which carries the line `abort_unless` writes to `stderr` (none for the bare
`abort()` of a failed allocation) and the machine `abort()` is called in.

`OCAMLPOOL_NO_ASSERT` selects one of two bodies for `ocamlpool_assert`; `Build` names the two
builds. Calls into the runtime are modelled by what the library sees of them: the answer of
`caml_shared_try_alloc` is part of the step that reserves a block, and
`caml_process_pending_actions` is an `Event` of `ocamlpool_leave`, recorded with the section flag
as the runtime finds it. Whatever the runtime does between two library calls (allocate on the minor
heap, collect, run a pending action) is a `Step.runtime`, which may leave the runtime in any state.
So is what `caml_process_pending_actions` runs when `ocamlpool_leave` calls it, and whatever
`caml_shared_try_alloc` writes for its own bookkeeping: of the allocator the model keeps only its
answer.

A run is a list of steps (`run`). `ocamlpoolEnter_eq` and `ocamlpoolLeave_eq` give each check
with its diagnostic line, `step_enter_ok`, `step_leave_ok` and `step_reserveBlock_ok` say once what
a successful step can do, `step_error` what an abort leaves behind (a failed check names itself and
changes nothing), `run_cons_ok` and `run_append_ok` take runs apart, and `run_error` finds the
step an aborted run stopped at, so the later modules never unfold the entry points.
-/

set_option autoImplicit false
set_option relaxedAutoImplicit false

namespace OCamlPool

/-! ### State -/

/-- `caml_global_heap_state`, as far as `ocamlpool_reserve_block` reads it: the status of a block
marked in the current major cycle. The runtime keeps every status in the colour bits of a header. -/
structure GlobalHeapState where
  marked : Header
  colorHd_marked : colorHd marked = marked

/-- The runtime state the library reads or writes: `Caml_state->young_ptr` (`caml_young_ptr`),
`Caml_state->young_end`, where a minor collection leaves the young pointer,
`Caml_state->allocated_words`, the words of the shared heap, and `caml_global_heap_state`. -/
structure Runtime where
  camlYoungPtr : Nat
  camlYoungEnd : Nat
  allocatedWords : Uintnat
  heap : Nat → Header
  camlGlobalHeapState : GlobalHeapState

/-- The two statics of `ocamlpool.c` and the runtime. -/
structure Machine where
  ocamlpoolInSection : Int
  ocamlpoolSaneYoungPtr : Nat
  runtime : Runtime

/-- The machine at program start: both statics are zero-initialised. -/
def loaded (rt : Runtime) : Machine := ⟨0, 0, rt⟩

/-- A runtime with an empty minor heap ending at address 64, a zeroed shared heap and the major
heap's statuses as the runtime starts them (`MARKED` is `0 << HEADER_COLOR_SHIFT`). -/
def emptyRuntime : Runtime := ⟨64, 64, 0, fun _ ↦ 0, ⟨0, rfl⟩⟩

/-- Whether `OCAMLPOOL_NO_ASSERT` is defined. -/
inductive Build
  | default
  | noAssert
  deriving DecidableEq, Repr

/-- What `abort()` leaves behind: the diagnostic line, if one was written, and the machine. -/
structure Abort where
  diagnostic : Option String
  machine : Machine

/-- What a library call shows to its caller and to the runtime. -/
inductive Event
  /-- `caml_process_pending_actions ()`, called with the section flag at this value. -/
  | camlProcessPendingActions (ocamlpoolInSection : Int)
  /-- `ocamlpool_reserve_block` returns this handle. -/
  | returned (v : Nat)
  deriving DecidableEq, Repr

/-! ### Sanity checks -/

/-- The `int` a C comparison or `&&` evaluates to. -/
def truthValue (p : Prop) [Decidable p] : Int := if p then 1 else 0

/-- `abort_unless`. -/
def abortUnless (x : Int) (message : String) (m : Machine) : Except Abort Unit :=
  if x = 0 then
    .error ⟨some ("OCamlPool invariant violation (" ++ toString x ++ "): " ++ message ++ "\n"), m⟩
  else .ok ()

/-- `ocamlpool_assert`, in each build. -/
def ocamlpoolAssert : Build → Int → String → Machine → Except Abort Unit
  | .default, x, message, m => abortUnless x message m
  | .noAssert, _, _, _ => .ok ()

/-- `assert_in_section`. -/
def assertInSection (b : Build) (m : Machine) : Except Abort Unit :=
  ocamlpoolAssert b
    (truthValue (m.ocamlpoolInSection = 1 ∧ m.ocamlpoolSaneYoungPtr = m.runtime.camlYoungPtr))
    "assert_in_section" m

/-- `assert_out_of_section`. -/
def assertOutOfSection (b : Build) (m : Machine) : Except Abort Unit :=
  ocamlpoolAssert b (truthValue (m.ocamlpoolInSection = 0)) "assert_out_of_section" m

/-! ### Sections and allocations -/

/-- `ocamlpool_enter`. -/
def ocamlpoolEnter (b : Build) (m : Machine) : Except Abort Machine := do
  assertOutOfSection b m
  pure { m with ocamlpoolInSection := 1, ocamlpoolSaneYoungPtr := m.runtime.camlYoungPtr }

/-- `ocamlpool_leave`. -/
def ocamlpoolLeave (b : Build) (m : Machine) : Except Abort (Machine × List Event) := do
  assertInSection b m
  let m := { m with ocamlpoolInSection := 0 }
  pure (m, [.camlProcessPendingActions m.ocamlpoolInSection])

/-- `ocamlpool_reserve_block`, where `p` is the answer of
`caml_shared_try_alloc (d->shared_heap, wosize, tag, 0)`. -/
def ocamlpoolReserveBlock (m : Machine) (tag : Tag) (wosize : Mlsize) (p : Option Nat) :
    Except Abort (Machine × Nat) :=
  let d := { m.runtime with allocatedWords := m.runtime.allocatedWords + whsizeWosize wosize }
  match p with
  | none => .error ⟨none, { m with runtime := d }⟩
  | some p =>
    let hd := makeHeader wosize tag d.camlGlobalHeapState.marked
    .ok ({ m with runtime := { d with heap := Function.update d.heap p hd } }, valHp p)

/-! ### Runs -/

/-- One step of a process: a library call, or the runtime running between two of them. -/
inductive Step
  | enter
  | leave
  | reserveBlock (tag : Tag) (wosize : Mlsize) (allocation : Option Nat)
  | runtime (rt : Runtime)

def step (b : Build) (m : Machine) : Step → Except Abort (Machine × List Event)
  | .enter => (ocamlpoolEnter b m).map fun m ↦ (m, [])
  | .leave => ocamlpoolLeave b m
  | .reserveBlock tag wosize p =>
    (ocamlpoolReserveBlock m tag wosize p).map fun r ↦ (r.1, [.returned r.2])
  | .runtime rt => .ok ({ m with runtime := rt }, [])

/-- The steps in order, stopping at the first abort; the events of all steps. -/
def run (b : Build) : Machine → List Step → Except Abort (Machine × List Event)
  | m, [] => .ok (m, [])
  | m, s :: steps => do
    let (m₁, e₁) ← step b m s
    let (m₂, e₂) ← run b m₁ steps
    pure (m₂, e₁ ++ e₂)

/-! ### What each call does -/

@[simp] theorem isOk_ok {α : Type} (a : α) : (Except.ok a : Except Abort α).isOk = true := rfl

@[simp] theorem isOk_error {α : Type} (a : Abort) : (Except.error a : Except Abort α).isOk = false :=
  rfl

@[simp] theorem map_ok {α β : Type} (f : α → β) (a : α) :
    (Except.ok a : Except Abort α).map f = .ok (f a) := rfl

@[simp] theorem map_error {α β : Type} (f : α → β) (a : Abort) :
    (Except.error a : Except Abort α).map f = .error a := rfl

theorem isOk_eq_true_iff {α : Type} {x : Except Abort α} : x.isOk = true ↔ ∃ a, x = .ok a := by
  cases x <;> simp

section Calls

variable (b : Build) (m : Machine)

theorem ocamlpoolAssert_eq (x : Int) (message : String) :
    ocamlpoolAssert b x message m =
      if b = .default ∧ x = 0 then
        .error ⟨some ("OCamlPool invariant violation (0): " ++ message ++ "\n"), m⟩
      else .ok () := by
  have hline : "OCamlPool invariant violation (" ++ toString (0 : Int) ++ "): " =
      "OCamlPool invariant violation (0): " := rfl
  cases b <;> by_cases hx : x = 0 <;> simp [ocamlpoolAssert, abortUnless, hx, hline]

theorem ocamlpoolEnter_eq : ocamlpoolEnter b m =
    if b = .default ∧ m.ocamlpoolInSection ≠ 0 then
      .error ⟨some "OCamlPool invariant violation (0): assert_out_of_section\n", m⟩
    else .ok { m with ocamlpoolInSection := 1, ocamlpoolSaneYoungPtr := m.runtime.camlYoungPtr } := by
  rw [ocamlpoolEnter, assertOutOfSection, ocamlpoolAssert_eq]
  by_cases h : m.ocamlpoolInSection = 0 <;> cases b <;> simp [h, truthValue]

theorem ocamlpoolLeave_eq : ocamlpoolLeave b m =
    if b = .default ∧
        ¬(m.ocamlpoolInSection = 1 ∧ m.ocamlpoolSaneYoungPtr = m.runtime.camlYoungPtr) then
      .error ⟨some "OCamlPool invariant violation (0): assert_in_section\n", m⟩
    else .ok ({ m with ocamlpoolInSection := 0 }, [.camlProcessPendingActions 0]) := by
  rw [ocamlpoolLeave, assertInSection, ocamlpoolAssert_eq]
  by_cases h : m.ocamlpoolInSection = 1 ∧ m.ocamlpoolSaneYoungPtr = m.runtime.camlYoungPtr <;>
    cases b <;> simp [h, truthValue]

variable {b m} {m' : Machine} {e : List Event}

theorem step_enter_ok : step b m .enter = .ok (m', e) ↔
    (b = .default → m.ocamlpoolInSection = 0) ∧
      m' = { m with ocamlpoolInSection := 1, ocamlpoolSaneYoungPtr := m.runtime.camlYoungPtr } ∧
      e = [] := by
  rw [step, ocamlpoolEnter_eq]
  by_cases h : m.ocamlpoolInSection = 0 <;> cases b <;> simp [h, eq_comm]

theorem step_leave_ok : step b m .leave = .ok (m', e) ↔
    (b = .default →
        m.ocamlpoolInSection = 1 ∧ m.ocamlpoolSaneYoungPtr = m.runtime.camlYoungPtr) ∧
      m' = { m with ocamlpoolInSection := 0 } ∧ e = [.camlProcessPendingActions 0] := by
  rw [step, ocamlpoolLeave_eq]
  by_cases h : m.ocamlpoolInSection = 1 ∧ m.ocamlpoolSaneYoungPtr = m.runtime.camlYoungPtr <;>
    cases b <;> simp [h, eq_comm]

theorem step_reserveBlock_ok {tag : Tag} {wosize : Mlsize} {p : Option Nat} :
    step b m (.reserveBlock tag wosize p) = .ok (m', e) ↔ ∃ hp, p = some hp ∧
      m' = { m with runtime := { m.runtime with
        allocatedWords := m.runtime.allocatedWords + whsizeWosize wosize,
        heap := Function.update m.runtime.heap hp
          (makeHeader wosize tag m.runtime.camlGlobalHeapState.marked) } } ∧
      e = [.returned (valHp hp)] := by
  cases p <;> simp [step, ocamlpoolReserveBlock, eq_comm]

theorem step_runtime {rt : Runtime} : step b m (.runtime rt) = .ok ({ m with runtime := rt }, []) :=
  rfl

/-- Every abort: a failed check, only in the default build, writes the line that names it and
leaves the machine as it was; a failed allocation writes nothing, after growing the counter. -/
theorem step_error {s : Step} {a : Abort} (h : step b m s = .error a) :
    (b = .default ∧ s = .enter ∧
        a = ⟨some "OCamlPool invariant violation (0): assert_out_of_section\n", m⟩) ∨
      (b = .default ∧ s = .leave ∧
        a = ⟨some "OCamlPool invariant violation (0): assert_in_section\n", m⟩) ∨
      ∃ tag wosize, s = .reserveBlock tag wosize none ∧ a = ⟨none, { m with runtime :=
        { m.runtime with allocatedWords := m.runtime.allocatedWords + whsizeWosize wosize } }⟩ := by
  cases s with
  | enter =>
    rw [step, ocamlpoolEnter_eq] at h
    split at h
    · cases h
      exact .inl ⟨‹_ ∧ _›.1, rfl, rfl⟩
    · cases h
  | leave =>
    rw [step, ocamlpoolLeave_eq] at h
    split at h
    · cases h
      exact .inr (.inl ⟨‹_ ∧ _›.1, rfl, rfl⟩)
    · cases h
  | reserveBlock tag wosize p =>
    cases p with
    | none =>
      cases h
      exact .inr (.inr ⟨tag, wosize, rfl, rfl⟩)
    | some hp => cases h
  | runtime rt => cases h

end Calls

/-! ### Runs -/

section Runs

variable {b : Build}

theorem run_cons_ok {m m' : Machine} {s : Step} {steps : List Step} {e : List Event} :
    run b m (s :: steps) = .ok (m', e) ↔ ∃ m₁ e₁ e₂, step b m s = .ok (m₁, e₁) ∧
      run b m₁ steps = .ok (m', e₂) ∧ e = e₁ ++ e₂ := by
  constructor
  · intro h
    simp only [run, bind, Except.bind, pure, Except.pure] at h
    split at h
    · cases h
    · rename_i r₁ h₁
      split at h
      · cases h
      · rename_i r₂ h₂
        cases h
        exact ⟨_, _, _, h₁, h₂, rfl⟩
  · rintro ⟨m₁, e₁, e₂, h₁, h₂, rfl⟩
    simp [run, bind, Except.bind, pure, Except.pure, h₁, h₂]

theorem run_append_ok {m m' : Machine} {xs ys : List Step} {e : List Event} :
    run b m (xs ++ ys) = .ok (m', e) ↔ ∃ m₁ e₁ e₂, run b m xs = .ok (m₁, e₁) ∧
      run b m₁ ys = .ok (m', e₂) ∧ e = e₁ ++ e₂ := by
  induction xs generalizing m e with
  | nil =>
    constructor
    · exact fun h ↦ ⟨m, [], e, rfl, h, rfl⟩
    · rintro ⟨m₁, e₁, e₂, h₁, h₂, rfl⟩
      cases h₁
      exact h₂
  | cons s xs ih =>
    simp only [List.cons_append, run_cons_ok, ih]
    constructor
    · rintro ⟨m₁, e₁, _, h₁, ⟨m₂, e₃, e₄, h₃, h₄, rfl⟩, rfl⟩
      exact ⟨m₂, e₁ ++ e₃, e₄, ⟨m₁, e₁, e₃, h₁, h₃, rfl⟩, h₄, by simp⟩
    · rintro ⟨m₂, _, e₄, ⟨m₁, e₁, e₃, h₁, h₃, rfl⟩, h₄, rfl⟩
      exact ⟨m₁, e₁, e₃ ++ e₄, h₁, ⟨m₂, e₃, e₄, h₃, h₄, rfl⟩, by simp⟩

theorem run_cons_error {m : Machine} {s : Step} {steps : List Step} {a : Abort}
    (h : step b m s = .error a) : run b m (s :: steps) = .error a := by
  simp only [run, bind, Except.bind, h]

/-- A run that aborts does so at its first failing step, from the machine the steps before it
leave. -/
theorem run_error {m : Machine} {steps : List Step} {a : Abort} (h : run b m steps = .error a) :
    ∃ pre s post m₁ e₁, steps = pre ++ s :: post ∧ run b m pre = .ok (m₁, e₁) ∧
      step b m₁ s = .error a := by
  induction steps generalizing m with
  | nil => cases h
  | cons s steps ih =>
    cases h₁ : step b m s with
    | error a₁ =>
      simp only [run, bind, Except.bind, h₁, Except.error.injEq] at h
      exact ⟨[], s, steps, m, [], rfl, rfl, h ▸ h₁⟩
    | ok r₁ =>
      simp only [run, bind, Except.bind, h₁] at h
      split at h
      · rename_i a₂ h₂
        cases h
        obtain ⟨pre, s', post, m₂, e₂, rfl, hpre, hs'⟩ := ih h₂
        exact ⟨s :: pre, s', post, m₂, r₁.2 ++ e₂, rfl, run_cons_ok.mpr ⟨_, _, _, h₁, hpre, rfl⟩, hs'⟩
      · cases h

theorem isOk_run_singleton {m : Machine} {s : Step} : (run b m [s]).isOk = (step b m s).isOk := by
  cases h : step b m s with
  | error a => rw [run_cons_error h]
  | ok r =>
    rw [show run b m [s] = .ok (r.1, r.2 ++ []) from run_cons_ok.mpr ⟨_, _, _, h, rfl, rfl⟩,
      isOk_ok, isOk_ok]

theorem isOk_run_append_of_ok {m m₁ : Machine} {xs ys : List Step} {e₁ : List Event}
    (h : run b m xs = .ok (m₁, e₁)) : (run b m (xs ++ ys)).isOk = (run b m₁ ys).isOk := by
  apply Bool.eq_iff_iff.mpr
  simp only [isOk_eq_true_iff, Prod.exists]
  constructor
  · rintro ⟨m', e, h'⟩
    obtain ⟨m₂, e₂, e₃, h₂, h₃, -⟩ := run_append_ok.mp h'
    rw [h] at h₂
    cases h₂
    exact ⟨_, _, h₃⟩
  · rintro ⟨m', e, h'⟩
    exact ⟨_, _, run_append_ok.mpr ⟨_, _, _, h, h', rfl⟩⟩

end Runs

end OCamlPool
