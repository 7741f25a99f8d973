import OCamlPool.Reserve
import Mathlib.Data.List.Chain

/-!
# The section guard over whole runs

What `ocamlpool_enter` and `ocamlpool_leave` are for, stated on its own: a `Guard` is either no
section or one open section together with the young pointer it was entered at, and `guardStep`
admits an enter only when no section is open and a leave only when one is and the young pointer
is back at its snapshot. `SectionFlag` is the invariant of the C state, that the flag only ever
holds 0 or 1 (`sectionFlag_of_reachable`), and `guard` reads the abstract guard off it.

In the default build the library implements the guard: a step succeeds exactly when the guard
admits it (`isOk_step_default`), and then moves the C state as the guard moves
(`guard_step_default`). From these two lemmas, by induction on the run, the enters and leaves of a
successful run alternate (`chain_sectionCalls_of_run_default`) and the snapshot a leave compares
with is the young pointer at its matching enter (`guard_run_enter`). From one step lemma each, the
flag counts the unmatched enter (`ocamlpoolInSection_of_run_default`) and
`caml_process_pending_actions` is called once per leave with the section already closed
(`pendingActions_of_run`). `section_discipline` collects these. A run that aborts stops at one of
two checks, whose line names it and whose machine is the one it read, or at a failed allocation
(`abort_of_run`).

The check compares values, not histories: `leave_compares_young_ptr_value` shows that a leave
aborts exactly when the last value the runtime left in the young pointer differs from the
snapshot, so a minor allocation followed by a minor collection that ends on the snapshot goes
unnoticed (`drift_back_undetected`). With `OCAMLPOOL_NO_ASSERT` defined the checks are compiled
out: `noAssert_unchecked` shows that no enter and no leave aborts there, so that build does not
implement the guard (`noAssert_nesting_and_drift`). It only adds runs: every run of the default
build that does not abort is a run of it, with the same result (`run_noAssert_of_default`).

`guardRun` runs the guard over a whole list of steps, a runtime step moving the young pointer it
compares with. `run_default_refines_guard` lifts the two step lemmas of the refinement to runs:
from any machine whose flag holds 0 or 1, a run of the default build aborts exactly when the guard
run does, and a run that completes ends in the C state of the guard's last state.
-/

set_option autoImplicit false
set_option relaxedAutoImplicit false

namespace OCamlPool

/-! ### The invariant of the C state -/

/-- The section flag holds 0 or 1. -/
def SectionFlag (m : Machine) : Prop := m.ocamlpoolInSection = 0 ∨ m.ocamlpoolInSection = 1

/-- The machines a process can reach from program start in a build. -/
inductive Reachable (b : Build) : Machine → Prop
  | loaded (rt : Runtime) : Reachable b (loaded rt)
  | step {m m' : Machine} {s : Step} {e : List Event} :
      Reachable b m → step b m s = .ok (m', e) → Reachable b m'

section Flag

variable {b : Build} {m m' : Machine} {e : List Event}

theorem sectionFlag_step {s : Step} (hm : SectionFlag m) (h : step b m s = .ok (m', e)) :
    SectionFlag m' := by
  cases s with
  | enter =>
    obtain ⟨-, rfl, -⟩ := step_enter_ok.mp h
    exact .inr rfl
  | leave =>
    obtain ⟨-, rfl, -⟩ := step_leave_ok.mp h
    exact .inl rfl
  | reserveBlock tag wosize p =>
    obtain ⟨hp, -, rfl, -⟩ := step_reserveBlock_ok.mp h
    exact hm
  | runtime rt =>
    cases step_runtime.symm.trans h
    exact hm

theorem sectionFlag_of_reachable (h : Reachable b m) : SectionFlag m := by
  induction h with
  | loaded rt => exact .inl rfl
  | step _ hstep ih => exact sectionFlag_step ih hstep

theorem Reachable.run {steps : List Step} (hm : Reachable b m) (h : run b m steps = .ok (m', e)) :
    Reachable b m' := by
  induction steps generalizing m e with
  | nil =>
    cases h
    exact hm
  | cons s steps ih =>
    obtain ⟨m₁, e₁, e₂, h₁, h₂, -⟩ := run_cons_ok.mp h
    exact ih (hm.step h₁) h₂

end Flag

/-! ### The abstract guard -/

/-- No section (`none`), or a section entered when the young pointer was at the address. -/
abbrev Guard := Option Nat

/-- One step seen by the guard, with the young pointer at `young`: `none` where the step must
abort. A reservation aborts only when the allocator fails. -/
def guardStep (young : Nat) (g : Guard) : Step → Option Guard
  | .enter =>
    match g with
    | none => some (some young)
    | some _ => none
  | .leave => if g = some young then some none else none
  | .reserveBlock _ _ p => p.map fun _ ↦ g
  | .runtime _ => some g

@[simp] theorem guardStep_enter_none (young : Nat) : guardStep young none .enter = some (some young) :=
  rfl

@[simp] theorem guardStep_enter_some (young snapshot : Nat) :
    guardStep young (some snapshot) .enter = none := rfl

@[simp] theorem guardStep_leave (young : Nat) (g : Guard) :
    guardStep young g .leave = if g = some young then some none else none := rfl

@[simp] theorem guardStep_reserveBlock (young : Nat) (g : Guard) (tag : Tag) (wosize : Mlsize)
    (p : Option Nat) : guardStep young g (.reserveBlock tag wosize p) = p.map fun _ ↦ g := rfl

@[simp] theorem guardStep_runtime (young : Nat) (g : Guard) (rt : Runtime) :
    guardStep young g (.runtime rt) = some g := rfl

/-- The guard a C state stands for. -/
def guard (m : Machine) : Guard :=
  if m.ocamlpoolInSection = 1 then some m.ocamlpoolSaneYoungPtr else none

@[simp] theorem guard_of_eq_one {m : Machine} (h : m.ocamlpoolInSection = 1) :
    guard m = some m.ocamlpoolSaneYoungPtr := if_pos h

@[simp] theorem guard_of_ne_one {m : Machine} (h : m.ocamlpoolInSection ≠ 1) : guard m = none :=
  if_neg h

section Refinement

variable {m m' : Machine} {e : List Event} {s : Step}

theorem isOk_step_default (hm : SectionFlag m) :
    (step .default m s).isOk = (guardStep m.runtime.camlYoungPtr (guard m) s).isSome := by
  cases s with
  | enter =>
    rw [step, ocamlpoolEnter_eq]
    rcases hm with hm | hm <;> simp [hm]
  | leave =>
    rw [step, ocamlpoolLeave_eq]
    rcases hm with hm | hm <;> by_cases hy : m.ocamlpoolSaneYoungPtr = m.runtime.camlYoungPtr <;>
      simp [hm, hy]
  | reserveBlock tag wosize p => cases p <;> rfl
  | runtime rt => rfl

theorem guard_step_default (h : step .default m s = .ok (m', e)) :
    guardStep m.runtime.camlYoungPtr (guard m) s = some (guard m') := by
  cases s with
  | enter =>
    obtain ⟨hin, rfl, -⟩ := step_enter_ok.mp h
    simp [hin rfl]
  | leave =>
    obtain ⟨hcheck, rfl, -⟩ := step_leave_ok.mp h
    obtain ⟨hin, hsane⟩ := hcheck rfl
    simp [hin, hsane]
  | reserveBlock tag wosize p =>
    obtain ⟨hp, rfl, rfl, -⟩ := step_reserveBlock_ok.mp h
    rfl
  | runtime rt =>
    cases step_runtime.symm.trans h
    rfl

end Refinement

/-! ### Section calls and pending actions -/

/-- The section call a step makes: `true` for an enter, `false` for a leave. -/
def Step.sectionCall : Step → Option Bool
  | .enter => some true
  | .leave => some false
  | .reserveBlock .. => none
  | .runtime _ => none

/-- The enters (`true`) and leaves (`false`) of a list of steps, in order. -/
def sectionCalls (steps : List Step) : List Bool := steps.filterMap Step.sectionCall

/-- The section flag of each call to `caml_process_pending_actions`, in order. -/
def pendingActions (events : List Event) : List Int :=
  events.filterMap fun
    | .camlProcessPendingActions flag => some flag
    | .returned _ => none

theorem sectionCalls_cons (s : Step) (steps : List Step) :
    sectionCalls (s :: steps) = s.sectionCall.toList ++ sectionCalls steps := by
  cases h : s.sectionCall <;> simp [sectionCalls, List.filterMap_cons, h]

theorem sectionCalls_cons_eq_nil {s : Step} {steps : List Step} :
    sectionCalls (s :: steps) = [] ↔ s.sectionCall = none ∧ sectionCalls steps = [] := by
  rw [sectionCalls_cons]
  cases s.sectionCall <;> simp

/-- What the guard admits, by the section call of the step. -/
theorem guardStep_eq_some {young : Nat} {g g' : Guard} {s : Step}
    (h : guardStep young g s = some g') :
    (s.sectionCall = some true ∧ g = none ∧ g' = some young) ∨
      (s.sectionCall = some false ∧ g = some young ∧ g' = none) ∨
      (s.sectionCall = none ∧ g' = g) := by
  cases s with
  | enter => cases g <;> simp_all [Step.sectionCall]
  | leave => by_cases hg : g = some young <;> simp_all [Step.sectionCall]
  | reserveBlock tag wosize p => cases p <;> simp_all [Step.sectionCall]
  | runtime rt => simp_all [Step.sectionCall]

/-- A section call the guard admits opens a section exactly when it is an enter, from the other
side. -/
theorem isSome_of_guardStep_eq_some {young : Nat} {g g' : Guard} {s : Step} {c : Bool}
    (h : guardStep young g s = some g') (hs : s.sectionCall = some c) :
    g.isSome = !c ∧ g'.isSome = c := by
  rcases guardStep_eq_some h with ⟨hs', rfl, rfl⟩ | ⟨hs', rfl, rfl⟩ | ⟨hs', -⟩ <;>
    simp_all

/-- A step that neither enters nor leaves keeps the guard. -/
theorem guardStep_eq_some_self {young : Nat} {g g' : Guard} {s : Step}
    (h : guardStep young g s = some g') (hs : s.sectionCall = none) : g' = g := by
  rcases guardStep_eq_some h with ⟨hs', -⟩ | ⟨hs', -⟩ | ⟨-, hg⟩
  · cases hs.symm.trans hs'
  · cases hs.symm.trans hs'
  · exact hg

theorem pendingActions_append (e₁ e₂ : List Event) :
    pendingActions (e₁ ++ e₂) = pendingActions e₁ ++ pendingActions e₂ :=
  List.filterMap_append _ _ _

/-! ### Runs -/

section Runs

variable {m m' : Machine} {steps : List Step} {e : List Event}

/-- The enters and leaves of a successful run of the default build alternate, and the first is a
leave only if the run starts inside a section. -/
theorem chain_sectionCalls_of_run_default (h : run .default m steps = .ok (m', e)) :
    (sectionCalls steps).Chain' (· ≠ ·) ∧ (sectionCalls steps).head? ≠ some (guard m).isSome := by
  induction steps generalizing m e with
  | nil => exact ⟨List.chain'_nil, by simp [sectionCalls]⟩
  | cons s steps ih =>
    obtain ⟨m₁, e₁, e₂, h₁, h₂, -⟩ := run_cons_ok.mp h
    obtain ⟨hchain, hhead⟩ := ih h₂
    have hg := guard_step_default h₁
    rw [sectionCalls_cons]
    cases hs : s.sectionCall with
    | none =>
      rw [guardStep_eq_some_self hg hs] at hhead
      exact ⟨hchain, hhead⟩
    | some c =>
      obtain ⟨hc, hc₁⟩ := isSome_of_guardStep_eq_some hg hs
      rw [hc₁] at hhead
      refine ⟨List.chain'_cons'.mpr ⟨?_, hchain⟩, by simp [hc]⟩
      rintro y hy rfl
      exact hhead hy

/-- In the default build an enter finds the flag at 0 and sets it, a leave finds it at 1 and
clears it, and no other step touches it. -/
theorem ocamlpoolInSection_step_default {s : Step} (h : step .default m s = .ok (m', e)) :
    m'.ocamlpoolInSection = m.ocamlpoolInSection + (s.sectionCall.toList.count true : Int) -
      (s.sectionCall.toList.count false : Int) := by
  cases s with
  | enter =>
    obtain ⟨hin, rfl, -⟩ := step_enter_ok.mp h
    have : m.ocamlpoolInSection = 0 := hin rfl
    show (1 : Int) = _ + 1 - 0
    omega
  | leave =>
    obtain ⟨hcheck, rfl, -⟩ := step_leave_ok.mp h
    have : m.ocamlpoolInSection = 1 := (hcheck rfl).1
    show (0 : Int) = _ + 0 - 1
    omega
  | reserveBlock tag wosize p =>
    obtain ⟨hp, -, rfl, -⟩ := step_reserveBlock_ok.mp h
    show m.ocamlpoolInSection = _ + 0 - 0
    omega
  | runtime rt =>
    cases step_runtime.symm.trans h
    show m.ocamlpoolInSection = _ + 0 - 0
    omega

/-- In the default build the section flag goes up by one at each enter and down by one at each
leave. -/
theorem ocamlpoolInSection_of_run_default (h : run .default m steps = .ok (m', e)) :
    m'.ocamlpoolInSection = m.ocamlpoolInSection + ((sectionCalls steps).count true : Int) -
      ((sectionCalls steps).count false : Int) := by
  induction steps generalizing m e with
  | nil =>
    cases h
    simp [sectionCalls]
  | cons s steps ih =>
    obtain ⟨m₁, e₁, e₂, h₁, h₂, -⟩ := run_cons_ok.mp h
    rw [ih h₂, ocamlpoolInSection_step_default h₁, sectionCalls_cons, List.count_append,
      List.count_append]
    omega

/-- A step calls `caml_process_pending_actions` once if it is a leave, with the section flag
already cleared, and otherwise not at all. -/
theorem pendingActions_of_step {b : Build} {s : Step} (h : step b m s = .ok (m', e)) :
    pendingActions e = List.replicate (s.sectionCall.toList.count false) 0 := by
  cases s with
  | enter =>
    obtain ⟨-, -, rfl⟩ := step_enter_ok.mp h
    rfl
  | leave =>
    obtain ⟨-, -, rfl⟩ := step_leave_ok.mp h
    rfl
  | reserveBlock tag wosize p =>
    obtain ⟨hp, -, -, rfl⟩ := step_reserveBlock_ok.mp h
    rfl
  | runtime rt =>
    cases step_runtime.symm.trans h
    rfl

/-- In every build `caml_process_pending_actions` is called once per leave, with the section flag
already cleared. -/
theorem pendingActions_of_run {b : Build} (h : run b m steps = .ok (m', e)) :
    pendingActions e = List.replicate ((sectionCalls steps).count false) 0 := by
  induction steps generalizing m e with
  | nil =>
    cases h
    rfl
  | cons s steps ih =>
    obtain ⟨m₁, e₁, e₂, h₁, h₂, rfl⟩ := run_cons_ok.mp h
    rw [pendingActions_append, pendingActions_of_step h₁, ih h₂, sectionCalls_cons,
      List.count_append, List.replicate_add]

/-- A run of the default build with no enter and no leave keeps the guard. -/
theorem guard_run_default_of_sectionCalls_eq_nil (hcalls : sectionCalls steps = [])
    (h : run .default m steps = .ok (m', e)) : guard m' = guard m := by
  induction steps generalizing m e with
  | nil =>
    cases h
    rfl
  | cons s steps ih =>
    obtain ⟨m₁, e₁, e₂, h₁, h₂, -⟩ := run_cons_ok.mp h
    rw [sectionCalls_cons_eq_nil] at hcalls
    rw [ih hcalls.2 h₂, guardStep_eq_some_self (guard_step_default h₁) hcalls.1]

/-- The snapshot a leave compares with is the young pointer at its matching enter: after an enter
and steps that neither enter nor leave, the section is open with that snapshot. -/
theorem guard_run_enter {mid : List Step} (hcalls : sectionCalls mid = [])
    (h : run .default m (.enter :: mid) = .ok (m', e)) :
    guard m' = some m.runtime.camlYoungPtr := by
  obtain ⟨m₁, e₁, e₂, h₁, h₂, -⟩ := run_cons_ok.mp h
  rw [guard_run_default_of_sectionCalls_eq_nil hcalls h₂]
  rcases guardStep_eq_some (guard_step_default h₁) with
    ⟨-, -, hg₁⟩ | ⟨hs, -⟩ | ⟨hs, -⟩
  · exact hg₁
  · cases hs
  · cases hs

/-- Assumes: a reachable machine, then an enter and steps that neither enter nor leave. A leave
aborts exactly when the young pointer is not where it was at the enter. -/
theorem isOk_leave_after_enter {mid : List Step} (hm : Reachable .default m)
    (hcalls : sectionCalls mid = []) (h : run .default m (.enter :: mid) = .ok (m', e)) :
    (step .default m' .leave).isOk = false ↔ m'.runtime.camlYoungPtr ≠ m.runtime.camlYoungPtr := by
  rw [isOk_step_default (sectionFlag_of_reachable (hm.run h)), guard_run_enter hcalls h]
  by_cases hy : m'.runtime.camlYoungPtr = m.runtime.camlYoungPtr <;> simp [hy, Ne.symm]

end Runs

/-! ### Steps that always go through -/

/-- Whether the allocation a step asks for, if any, succeeds. -/
def Step.allocationSucceeds : Step → Bool
  | .reserveBlock _ _ p => p.isSome
  | _ => true

theorem exists_step_ok {b : Build} {m : Machine} {s : Step} (halloc : s.allocationSucceeds = true)
    (hcheck : b = .noAssert ∨ s.sectionCall = none) : ∃ m' e, step b m s = .ok (m', e) := by
  cases s with
  | enter =>
    rcases hcheck with rfl | hcall
    · exact ⟨_, _, step_enter_ok.mpr ⟨nofun, rfl, rfl⟩⟩
    · cases hcall
  | leave =>
    rcases hcheck with rfl | hcall
    · exact ⟨_, _, step_leave_ok.mpr ⟨nofun, rfl, rfl⟩⟩
    · cases hcall
  | reserveBlock tag wosize p =>
    obtain ⟨hp, rfl⟩ := Option.isSome_iff_exists.mp halloc
    exact ⟨_, _, rfl⟩
  | runtime rt => exact ⟨_, _, rfl⟩

/-- Assumes: every allocation succeeds, and either the build has no checks or the steps neither
enter nor leave. Then the run does not abort. -/
theorem exists_run_ok {b : Build} {m : Machine} {steps : List Step}
    (halloc : ∀ s ∈ steps, s.allocationSucceeds = true)
    (hcheck : b = .noAssert ∨ sectionCalls steps = []) : ∃ m' e, run b m steps = .ok (m', e) := by
  induction steps generalizing m with
  | nil => exact ⟨_, _, rfl⟩
  | cons s steps ih =>
    rw [sectionCalls_cons_eq_nil] at hcheck
    obtain ⟨m₁, e₁, h₁⟩ := exists_step_ok (halloc s (List.mem_cons_self s steps))
      (hcheck.imp_right And.left)
    obtain ⟨m₂, e₂, h₂⟩ := ih (fun s' hs' ↦ halloc s' (List.mem_cons_of_mem s hs'))
      (hcheck.imp_right And.right)
    exact ⟨_, _, run_cons_ok.mpr ⟨_, _, _, h₁, h₂, rfl⟩⟩

/-! ### The section discipline of the default build -/

theorem isOk_step_enter_default {m : Machine} (hm : SectionFlag m) :
    (step .default m .enter).isOk = false ↔ m.ocamlpoolInSection = 1 := by
  rw [isOk_step_default hm]
  rcases hm with hm | hm <;> simp [hm]

theorem isOk_step_leave_default {m : Machine} (hm : SectionFlag m) :
    (step .default m .leave).isOk = false ↔
      m.ocamlpoolInSection ≠ 1 ∨ m.runtime.camlYoungPtr ≠ m.ocamlpoolSaneYoungPtr := by
  rw [isOk_step_default hm]
  rcases hm with hm | hm <;>
    by_cases hy : m.runtime.camlYoungPtr = m.ocamlpoolSaneYoungPtr <;>
      simp [hm, hy, Ne.symm]

/-- A reservation changes neither static of the library nor the young pointer. -/
theorem reserveBlock_keeps_section {b : Build} {m m' : Machine} {tag : Tag} {wosize : Mlsize}
    {hp : Nat} {e : List Event} (h : step b m (.reserveBlock tag wosize (some hp)) = .ok (m', e)) :
    m'.ocamlpoolInSection = m.ocamlpoolInSection ∧
      m'.ocamlpoolSaneYoungPtr = m.ocamlpoolSaneYoungPtr ∧
      m'.runtime.camlYoungPtr = m.runtime.camlYoungPtr := by
  obtain ⟨_, hp, rfl, -⟩ := step_reserveBlock_ok.mp h
  exact ⟨rfl, rfl, rfl⟩

theorem isOk_enter_blocks_leave {m : Machine} (hin : m.ocamlpoolInSection = 0)
    (blocks : List Block) :
    (run .default m (.enter :: blocks.map Block.step ++ [.leave])).isOk = true := by
  have henter := step_enter_ok (b := .default) (m := m) |>.mpr ⟨fun _ ↦ hin, rfl, rfl⟩
  have hrun := run_cons_ok.mpr ⟨_, _, _, henter, run_blocks .default _ blocks, rfl⟩
  rw [isOk_run_append_of_ok hrun, isOk_eq_true_iff]
  exact ⟨_, run_cons_ok.mpr ⟨_, _, _, step_leave_ok.mpr ⟨fun _ ↦ ⟨rfl, rfl⟩, rfl, rfl⟩, rfl, rfl⟩⟩

/-- The section discipline of the default build. From every reachable machine an enter aborts
exactly when a section is open, and a leave exactly when none is or the young pointer is not at
the snapshot, which is where the young pointer was at the matching enter; a reservation changes
neither static nor the young pointer. Along every run from program start that does not abort, the
enters and leaves alternate starting with an enter, the section flag is the number of enters less
the number of leaves, and `caml_process_pending_actions` is called once per leave, with the flag at
0. From a reachable machine with no section open, an enter, reservations whose allocations
succeed, and a leave never abort. -/
theorem section_discipline :
    (∀ m : Machine, Reachable .default m →
      ((step .default m .enter).isOk = false ↔ m.ocamlpoolInSection = 1) ∧
      ((step .default m .leave).isOk = false ↔
        m.ocamlpoolInSection ≠ 1 ∨ m.runtime.camlYoungPtr ≠ m.ocamlpoolSaneYoungPtr)) ∧
    (∀ (b : Build) (m m' : Machine) (tag : Tag) (wosize : Mlsize) (hp : Nat) (e : List Event),
      step b m (.reserveBlock tag wosize (some hp)) = .ok (m', e) →
        m'.ocamlpoolInSection = m.ocamlpoolInSection ∧
        m'.ocamlpoolSaneYoungPtr = m.ocamlpoolSaneYoungPtr ∧
        m'.runtime.camlYoungPtr = m.runtime.camlYoungPtr) ∧
    (∀ (m m' : Machine) (mid : List Step) (e : List Event), Reachable .default m →
      sectionCalls mid = [] → run .default m (.enter :: mid) = .ok (m', e) →
        ((step .default m' .leave).isOk = false ↔
          m'.runtime.camlYoungPtr ≠ m.runtime.camlYoungPtr)) ∧
    (∀ (rt : Runtime) (steps : List Step) (m : Machine) (e : List Event),
      run .default (loaded rt) steps = .ok (m, e) →
        (sectionCalls steps).Chain' (· ≠ ·) ∧ (sectionCalls steps).head? ≠ some false ∧
        m.ocamlpoolInSection =
          ((sectionCalls steps).count true : Int) - ((sectionCalls steps).count false : Int) ∧
        pendingActions e = List.replicate ((sectionCalls steps).count false) 0) ∧
    (∀ (m : Machine) (blocks : List Block), Reachable .default m → m.ocamlpoolInSection = 0 →
      (run .default m (.enter :: blocks.map Block.step ++ [.leave])).isOk = true) := by
  refine ⟨fun m hm ↦ ?_, fun b m m' tag wosize hp e h ↦ reserveBlock_keeps_section h,
    fun m m' mid e hm hcalls h ↦ isOk_leave_after_enter hm hcalls h,
    fun rt steps m e h ↦ ?_, fun m blocks _ hin ↦ isOk_enter_blocks_leave hin blocks⟩
  · have hflag := sectionFlag_of_reachable hm
    exact ⟨isOk_step_enter_default hflag, isOk_step_leave_default hflag⟩
  · obtain ⟨hchain, hhead⟩ := chain_sectionCalls_of_run_default h
    have hcount := ocamlpoolInSection_of_run_default h
    refine ⟨hchain, hhead, ?_, pendingActions_of_run h⟩
    rw [hcount]
    simp [loaded]

/-- Each part of the discipline from program start: the two checks, a reservation, a section with
one reservation before its leave, a run of one section, and a section with two reservations. -/
theorem section_discipline_from_start :
    (((step .default (loaded emptyRuntime) .enter).isOk = false ↔
        (loaded emptyRuntime).ocamlpoolInSection = 1) ∧
      ((step .default (loaded emptyRuntime) .leave).isOk = false ↔
        (loaded emptyRuntime).ocamlpoolInSection ≠ 1 ∨
          (loaded emptyRuntime).runtime.camlYoungPtr ≠ (loaded emptyRuntime).ocamlpoolSaneYoungPtr)) ∧
    (∃ m' e, step .default (loaded emptyRuntime) (.reserveBlock 0 1 (some 0)) = .ok (m', e) ∧
      m'.ocamlpoolInSection = (loaded emptyRuntime).ocamlpoolInSection ∧
      m'.ocamlpoolSaneYoungPtr = (loaded emptyRuntime).ocamlpoolSaneYoungPtr ∧
      m'.runtime.camlYoungPtr = (loaded emptyRuntime).runtime.camlYoungPtr) ∧
    (∃ m' e, run .default (loaded emptyRuntime) [.enter, .reserveBlock 0 1 (some 0)] = .ok (m', e) ∧
      ((step .default m' .leave).isOk = false ↔
        m'.runtime.camlYoungPtr ≠ (loaded emptyRuntime).runtime.camlYoungPtr)) ∧
    (∃ m e, run .default (loaded emptyRuntime) [.enter, .leave] = .ok (m, e) ∧
      (sectionCalls [.enter, .leave]).Chain' (· ≠ ·) ∧
      (sectionCalls [.enter, .leave]).head? ≠ some false ∧
      m.ocamlpoolInSection = ((sectionCalls [.enter, .leave]).count true : Int) -
        ((sectionCalls [.enter, .leave]).count false : Int) ∧
      pendingActions e = List.replicate ((sectionCalls [.enter, .leave]).count false) 0) ∧
    (run .default (loaded emptyRuntime)
      (.enter :: [Block.mk 0 1 0, Block.mk 3 2 2].map Block.step ++ [.leave])).isOk = true := by
  obtain ⟨hchecks, hreserve, hleave, hruns, hsections⟩ := section_discipline
  exact ⟨hchecks _ (.loaded _), ⟨_, _, rfl, hreserve .default _ _ _ _ _ _ rfl⟩,
    ⟨_, _, rfl, hleave _ _ [.reserveBlock 0 1 (some 0)] _ (.loaded _) rfl rfl⟩,
    ⟨_, _, rfl, hruns emptyRuntime _ _ _ rfl⟩, hsections _ _ (.loaded _) rfl⟩

/-! ### Aborts -/

/-- What an abort taken at the machine `m₁` can be: in the default build, an enter inside a
section, or a leave outside one or after the young pointer moved, each writing the line of its
own check and aborting in `m₁` unchanged; in every build, a failed allocation, which writes
nothing and has already grown the counter. -/
inductive AbortCause : Build → Machine → Abort → Prop
  | enter {m₁ : Machine} (hin : m₁.ocamlpoolInSection = 1) :
      AbortCause .default m₁ ⟨some "OCamlPool invariant violation (0): assert_out_of_section\n", m₁⟩
  | leave {m₁ : Machine}
      (hcheck : m₁.ocamlpoolInSection ≠ 1 ∨ m₁.runtime.camlYoungPtr ≠ m₁.ocamlpoolSaneYoungPtr) :
      AbortCause .default m₁ ⟨some "OCamlPool invariant violation (0): assert_in_section\n", m₁⟩
  | allocation {b : Build} {m₁ : Machine} (wosize : Mlsize) :
      AbortCause b m₁ ⟨none, { m₁ with runtime :=
        { m₁.runtime with allocatedWords := m₁.runtime.allocatedWords + whsizeWosize wosize } }⟩

/-- Every abort of a run from a reachable machine is taken at a reachable machine, for one of the
causes of `AbortCause`: in the build without checks only an allocation can fail. -/
theorem abort_of_run {b : Build} {m : Machine} {steps : List Step} {a : Abort}
    (hm : Reachable b m) (h : run b m steps = .error a) : ∃ m₁, Reachable b m₁ ∧ AbortCause b m₁ a := by
  obtain ⟨pre, s, post, m₁, e₁, -, hpre, hs⟩ := run_error h
  have hm₁ := hm.run hpre
  have hfail : (step b m₁ s).isOk = false := by rw [hs]; rfl
  refine ⟨m₁, hm₁, ?_⟩
  rcases step_error hs with ⟨rfl, rfl, rfl⟩ | ⟨rfl, rfl, rfl⟩ | ⟨tag, wosize, rfl, rfl⟩
  · exact .enter ((isOk_step_enter_default (sectionFlag_of_reachable hm₁)).mp hfail)
  · exact .leave ((isOk_step_leave_default (sectionFlag_of_reachable hm₁)).mp hfail)
  · exact .allocation wosize

/-- A leave with no section open, from program start, aborts with the line of
`assert_in_section`. -/
theorem abort_of_run_stray_leave :
    Reachable .default (loaded emptyRuntime) ∧
      run .default (loaded emptyRuntime) [.leave] =
        .error ⟨some "OCamlPool invariant violation (0): assert_in_section\n", loaded emptyRuntime⟩ ∧
      ∃ m₁, Reachable .default m₁ ∧ AbortCause .default m₁
        ⟨some "OCamlPool invariant violation (0): assert_in_section\n", loaded emptyRuntime⟩ :=
  have hrun : run .default (loaded emptyRuntime) [.leave] =
      .error ⟨some "OCamlPool invariant violation (0): assert_in_section\n", loaded emptyRuntime⟩ :=
    run_cons_error (by rw [step, ocamlpoolLeave_eq]; rfl)
  ⟨.loaded _, hrun, abort_of_run (.loaded _) hrun⟩

/-! ### Drift is detected by value -/

/-- The young pointer the runtime steps of a list leave, from `young`. -/
def youngPtrAfter (young : Nat) : List Step → Nat
  | [] => young
  | .runtime rt :: steps => youngPtrAfter rt.camlYoungPtr steps
  | _ :: steps => youngPtrAfter young steps

/-- Only the runtime moves the young pointer. -/
theorem camlYoungPtr_of_run {b : Build} {m m' : Machine} {steps : List Step} {e : List Event}
    (h : run b m steps = .ok (m', e)) :
    m'.runtime.camlYoungPtr = youngPtrAfter m.runtime.camlYoungPtr steps := by
  induction steps generalizing m e with
  | nil =>
    cases h
    rfl
  | cons s steps ih =>
    obtain ⟨m₁, e₁, e₂, h₁, h₂, -⟩ := run_cons_ok.mp h
    rw [ih h₂]
    cases s with
    | enter =>
      obtain ⟨-, rfl, -⟩ := step_enter_ok.mp h₁
      rfl
    | leave =>
      obtain ⟨-, rfl, -⟩ := step_leave_ok.mp h₁
      rfl
    | reserveBlock tag wosize p =>
      obtain ⟨hp, -, rfl, -⟩ := step_reserveBlock_ok.mp h₁
      rfl
    | runtime rt =>
      cases step_runtime.symm.trans h₁
      rfl

/-- Assumes: a reachable machine with no section open, and steps inside the section that neither
enter nor leave and whose allocations succeed. The leave aborts exactly when the last value the
runtime left in the young pointer differs from its value at the enter; the values it took in
between do not count. -/
theorem leave_compares_young_ptr_value (m : Machine) (mid : List Step)
    (hm : Reachable .default m) (hin : m.ocamlpoolInSection = 0) (hcalls : sectionCalls mid = [])
    (halloc : ∀ s ∈ mid, s.allocationSucceeds = true) :
    (run .default m (.enter :: mid ++ [.leave])).isOk = false ↔
      youngPtrAfter m.runtime.camlYoungPtr mid ≠ m.runtime.camlYoungPtr := by
  have henter := step_enter_ok (b := .default) (m := m) |>.mpr ⟨fun _ ↦ hin, rfl, rfl⟩
  obtain ⟨m₁, e₁, h₁⟩ := exists_run_ok (b := .default) (m := _) halloc (.inr hcalls)
  have hrun := run_cons_ok.mpr ⟨_, _, _, henter, h₁, rfl⟩
  rw [isOk_run_append_of_ok hrun, isOk_run_singleton, isOk_leave_after_enter hm hcalls hrun,
    camlYoungPtr_of_run h₁]

/-- The young pointer moved and moved back inside a section, and the leave reports nothing. -/
theorem leave_compares_young_ptr_value_drift_back :
    Reachable .default (loaded emptyRuntime) ∧ (loaded emptyRuntime).ocamlpoolInSection = 0 ∧
      sectionCalls [.runtime { emptyRuntime with camlYoungPtr := 48 }, .runtime emptyRuntime] = [] ∧
      (∀ s ∈ [Step.runtime { emptyRuntime with camlYoungPtr := 48 }, .runtime emptyRuntime],
        s.allocationSucceeds = true) ∧
      ((run .default (loaded emptyRuntime)
          (.enter :: [.runtime { emptyRuntime with camlYoungPtr := 48 }, .runtime emptyRuntime] ++
            [.leave])).isOk = false ↔
        youngPtrAfter (loaded emptyRuntime).runtime.camlYoungPtr
            [.runtime { emptyRuntime with camlYoungPtr := 48 }, .runtime emptyRuntime] ≠
          (loaded emptyRuntime).runtime.camlYoungPtr) :=
  have hcalls : sectionCalls [.runtime { emptyRuntime with camlYoungPtr := 48 }, .runtime emptyRuntime] = [] := rfl
  have halloc : ∀ s ∈ [Step.runtime { emptyRuntime with camlYoungPtr := 48 }, .runtime emptyRuntime],
      s.allocationSucceeds = true := by decide
  ⟨.loaded _, rfl, hcalls, halloc,
    leave_compares_young_ptr_value _ _ (.loaded _) rfl hcalls halloc⟩

/-- Inside a section entered with an empty minor heap, the runtime allocates on the minor heap,
moving the young pointer down from 64 to 48, then collects it, resetting the young pointer to the
end of the minor heap; the leave does not abort. -/
theorem drift_back_undetected :
    ({ emptyRuntime with camlYoungPtr := 48 } : Runtime).camlYoungPtr < emptyRuntime.camlYoungPtr ∧
      emptyRuntime.camlYoungPtr = emptyRuntime.camlYoungEnd ∧
      (run .default (loaded emptyRuntime)
        [.enter, .runtime { emptyRuntime with camlYoungPtr := 48 }, .runtime emptyRuntime, .leave]).isOk =
        true :=
  ⟨by decide, rfl, rfl⟩

/-! ### The build without checks -/

/-- With `OCAMLPOOL_NO_ASSERT` defined the section checks are compiled out. From every machine an
enter sets the flag and retakes the snapshot, and a leave clears the flag and calls
`caml_process_pending_actions`, whatever the flag and the young pointer; every run whose
allocations succeed completes. -/
theorem noAssert_unchecked :
    (∀ m : Machine,
      step .noAssert m .enter =
        .ok ({ m with ocamlpoolInSection := 1, ocamlpoolSaneYoungPtr := m.runtime.camlYoungPtr },
          []) ∧
      step .noAssert m .leave =
        .ok ({ m with ocamlpoolInSection := 0 }, [.camlProcessPendingActions 0])) ∧
    (∀ (m : Machine) (steps : List Step), (∀ s ∈ steps, s.allocationSucceeds = true) →
      (run .noAssert m steps).isOk = true) := by
  refine ⟨fun m ↦ ⟨step_enter_ok.mpr ⟨nofun, rfl, rfl⟩, step_leave_ok.mpr ⟨nofun, rfl, rfl⟩⟩,
    fun m steps halloc ↦ isOk_eq_true_iff.mpr ?_⟩
  obtain ⟨m', e, h⟩ := exists_run_ok (m := m) halloc (.inl rfl)
  exact ⟨_, h⟩

/-- A stray leave, two nested enters and a reservation complete in the build without checks. -/
theorem noAssert_unchecked_stray_leave :
    (∀ s ∈ [Step.leave, .enter, .enter, .reserveBlock 0 1 (some 0)], s.allocationSucceeds = true) ∧
      (run .noAssert (loaded emptyRuntime)
        [.leave, .enter, .enter, .reserveBlock 0 1 (some 0)]).isOk = true :=
  have halloc : ∀ s ∈ [Step.leave, .enter, .enter, .reserveBlock 0 1 (some 0)],
      s.allocationSucceeds = true := by decide
  ⟨halloc, noAssert_unchecked.2 _ _ halloc⟩

/-- Compiling the checks out changes nothing on a step that passes them. -/
theorem step_noAssert_of_default {m m' : Machine} {s : Step} {e : List Event}
    (h : step .default m s = .ok (m', e)) : step .noAssert m s = .ok (m', e) := by
  cases s with
  | enter =>
    obtain ⟨-, rfl, rfl⟩ := step_enter_ok.mp h
    exact step_enter_ok.mpr ⟨nofun, rfl, rfl⟩
  | leave =>
    obtain ⟨-, rfl, rfl⟩ := step_leave_ok.mp h
    exact step_leave_ok.mpr ⟨nofun, rfl, rfl⟩
  | reserveBlock tag wosize p => exact h
  | runtime rt => exact h

/-- Every run of the default build that does not abort is a run of the build without checks, with
the same machines and the same events. -/
theorem run_noAssert_of_default {m m' : Machine} {steps : List Step} {e : List Event}
    (h : run .default m steps = .ok (m', e)) : run .noAssert m steps = .ok (m', e) := by
  induction steps generalizing m e with
  | nil => exact h
  | cons s steps ih =>
    obtain ⟨m₁, e₁, e₂, h₁, h₂, rfl⟩ := run_cons_ok.mp h
    exact run_cons_ok.mpr ⟨m₁, e₁, e₂, step_noAssert_of_default h₁, ih h₂, rfl⟩

/-- A section with a reservation, from program start, runs the same in both builds. -/
theorem run_noAssert_of_default_section :
    ∃ m' e, run .default (loaded emptyRuntime) [.enter, .reserveBlock 0 1 (some 0), .leave] =
        .ok (m', e) ∧
      run .noAssert (loaded emptyRuntime) [.enter, .reserveBlock 0 1 (some 0), .leave] = .ok (m', e) :=
  ⟨_, _, rfl, run_noAssert_of_default rfl⟩

/-- In the build without checks a second enter, a leave with no section open, and a leave after
the young pointer moved all go through. -/
theorem noAssert_nesting_and_drift :
    (run .noAssert (loaded emptyRuntime) [.enter, .enter]).isOk = true ∧
      (run .noAssert (loaded emptyRuntime) [.leave]).isOk = true ∧
      (run .noAssert (loaded emptyRuntime)
        [.enter, .runtime { emptyRuntime with camlYoungPtr := 48 }, .leave]).isOk = true :=
  ⟨rfl, rfl, rfl⟩

/-! ### The guard over whole runs -/

/-- The guard over a list of steps from the young pointer `young`: each step goes through
`guardStep`, a runtime step moves the young pointer, and `none` where the run must abort. -/
def guardRun (young : Nat) (g : Guard) : List Step → Option Guard
  | [] => some g
  | s :: steps => (guardStep young g s).bind fun g' ↦ guardRun (youngPtrAfter young [s]) g' steps

/-- Assumes: the section flag holds 0 or 1. Over every run the default build aborts exactly when
the guard does, and a run that completes ends in the C state of the guard's last state. -/
theorem run_default_refines_guard {m : Machine} (hm : SectionFlag m) (steps : List Step) :
    (run .default m steps).isOk = (guardRun m.runtime.camlYoungPtr (guard m) steps).isSome ∧
      ∀ m' e, run .default m steps = .ok (m', e) →
        guardRun m.runtime.camlYoungPtr (guard m) steps = some (guard m') := by
  induction steps generalizing m with
  | nil => exact ⟨rfl, fun m' e h ↦ by cases h; rfl⟩
  | cons s steps ih =>
    cases h₁ : step .default m s with
    | error a =>
      have hok := isOk_step_default (s := s) hm
      rw [h₁] at hok
      have hnone : guardStep m.runtime.camlYoungPtr (guard m) s = none :=
        Option.not_isSome_iff_eq_none.mp fun hsome ↦ by rw [hsome] at hok; cases hok
      rw [run_cons_error h₁, guardRun, hnone]
      exact ⟨rfl, fun m' e h ↦ by cases h⟩
    | ok r =>
      obtain ⟨m₁, e₁⟩ := r
      have hrun₁ : run .default m [s] = .ok (m₁, e₁ ++ []) := run_cons_ok.mpr ⟨_, _, _, h₁, rfl, rfl⟩
      obtain ⟨hok, hguard⟩ := ih (sectionFlag_step hm h₁)
      rw [guardRun, guard_step_default h₁, Option.some_bind, ← camlYoungPtr_of_run hrun₁]
      refine ⟨(isOk_run_append_of_ok hrun₁).trans hok, fun m' e h ↦ ?_⟩
      obtain ⟨m₂, e₂, e₃, h₂, h₃, -⟩ := run_cons_ok.mp h
      rw [h₁] at h₂
      cases h₂
      exact hguard m' e₃ h₃

/-- From program start, a section and then a second leave. -/
theorem run_default_refines_guard_loaded :
    SectionFlag (loaded emptyRuntime) ∧
      ((run .default (loaded emptyRuntime) [.enter, .leave, .leave]).isOk =
          (guardRun (loaded emptyRuntime).runtime.camlYoungPtr (guard (loaded emptyRuntime))
            [.enter, .leave, .leave]).isSome ∧
        ∀ m' e, run .default (loaded emptyRuntime) [.enter, .leave, .leave] = .ok (m', e) →
          guardRun (loaded emptyRuntime).runtime.camlYoungPtr (guard (loaded emptyRuntime))
            [.enter, .leave, .leave] = some (guard m')) :=
  ⟨.inl rfl, run_default_refines_guard (.inl rfl) _⟩

end OCamlPool
