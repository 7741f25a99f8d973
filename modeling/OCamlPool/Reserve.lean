import Mathlib
import OCamlPool.Pool

/-!
# Reserving blocks

`ocamlpool_reserve_block` asks `caml_shared_try_alloc` for the block, adds the block's size with
its header to `Caml_state->allocated_words`, aborts if the allocator found no room, and otherwise
writes the header and returns the handle. It reads neither static of the library:
`reserveBlock_unguarded` shows that in every build and from every machine, a section open or not,
a reservation returns exactly when the allocator succeeds, with the counter grown, the header
written at the address the allocator answered, both statics unchanged and the handle `Val_hp` of
that address, and that a failed one stops with no diagnostic in the machine whose counter has
already grown.

A `Block` is one reservation of a run, with the address the allocator answers. `run_blocks`
computes a whole run of reservations: the counter grows by the sum of `Whsize_wosize` and the
headers are written one after the other (`writeHeaders`). When the allocator hands out pairwise
disjoint blocks no later header lands on an earlier one (`writeHeaders_of_mem`), so every handle
reads back its own tag, size and colour, and the counter grows by the sizes its headers give
(`reserveBlock_round_trip`), for tags below 256. `reserveBlock_tag_carry` is a tag of 256, which
the type `tag_t` admits: it reads back as tag 0, its high bit added into the colour.

`LibraryFrame` is what the code of `ocamlpool.c` itself writes over a run of library calls,
enters, leaves and reservations in any order with no runtime step between them, and
`libraryFrame_of_run` proves it of every such run that completes, in both builds: it writes
neither the young pointer, nor the end of the minor heap, nor the heap statuses, it adds
`reservedWords` to `allocated_words`, it writes the shared heap only at the `allocations`, and the
handles it returns are `Val_hp` of the allocations, in order. What `caml_process_pending_actions`
runs inside `ocamlpool_leave`, and what `caml_shared_try_alloc` writes for its own bookkeeping,
change the runtime too: they are runtime steps of the model, outside this frame. It is built from
one lemma per call (`libraryFrame_step`) and the composition of two runs (`LibraryFrame.trans`).
-/

set_option autoImplicit false
set_option relaxedAutoImplicit false

namespace OCamlPool

/-! ### One reservation -/

section One

variable (b : Build) (m : Machine) (tag : Tag) (wosize : Mlsize)

/-- `ocamlpool_reserve_block` reads neither static: in every build and from every machine, with
a section open, closed or drifted, it returns exactly when `caml_shared_try_alloc` succeeds. A
successful reservation adds `Whsize_wosize (wosize)` to `allocated_words`, writes
`Make_header (wosize, tag, MARKED)` at the header the allocator answered, leaves both statics
alone and returns `Val_hp` of that header; a failed one aborts with no diagnostic, in the machine
whose counter has already grown and which is otherwise unchanged. -/
theorem reserveBlock_unguarded (p : Option Nat) :
    (step b m (.reserveBlock tag wosize p)).isOk = p.isSome ∧
      (∀ hp, p = some hp → step b m (.reserveBlock tag wosize p) =
        .ok ({ m with runtime := { m.runtime with
            allocatedWords := m.runtime.allocatedWords + whsizeWosize wosize,
            heap := Function.update m.runtime.heap hp
              (makeHeader wosize tag m.runtime.camlGlobalHeapState.marked) } },
          [.returned (valHp hp)])) ∧
      ∀ a, step b m (.reserveBlock tag wosize p) = .error a → p = none ∧
        a = ⟨none, { m with runtime := { m.runtime with
          allocatedWords := m.runtime.allocatedWords + whsizeWosize wosize } }⟩ := by
  refine ⟨by cases p <;> rfl, fun hp hsome ↦ ?_, fun a h ↦ ?_⟩
  · subst hsome
    exact step_reserveBlock_ok.mpr ⟨hp, rfl, rfl, rfl⟩
  · cases p with
    | none =>
      cases h
      exact ⟨rfl, rfl⟩
    | some hp => cases h

end One

/-- With no section open, from program start: a reservation of one word at address 0 writes its
header and returns the handle 1, and a failed one aborts with the counter grown. -/
theorem reserveBlock_unguarded_loaded :
    step .default (loaded emptyRuntime) (.reserveBlock 0 1 (some 0)) =
        .ok ({ loaded emptyRuntime with runtime := { emptyRuntime with
            allocatedWords := emptyRuntime.allocatedWords + whsizeWosize 1,
            heap := Function.update emptyRuntime.heap 0
              (makeHeader 1 0 emptyRuntime.camlGlobalHeapState.marked) } },
          [.returned (valHp 0)]) ∧
      ∃ a, step .default (loaded emptyRuntime) (.reserveBlock 0 1 none) = .error a ∧
        a = ⟨none, { loaded emptyRuntime with runtime := { emptyRuntime with
          allocatedWords := emptyRuntime.allocatedWords + whsizeWosize 1 } }⟩ :=
  ⟨(reserveBlock_unguarded .default (loaded emptyRuntime) 0 1 (some 0)).2.1 0 rfl,
    _, rfl, ((reserveBlock_unguarded .default (loaded emptyRuntime) 0 1 none).2.2 _ rfl).2⟩

/-- A reservation returns with no section open, and with the young pointer moved inside one. -/
theorem reserveBlock_outside_section :
    (run .default (loaded emptyRuntime) [.reserveBlock 0 1 (some 0)]).isOk = true ∧
      (run .default (loaded emptyRuntime)
        [.enter, .runtime { emptyRuntime with camlYoungPtr := 48 }, .reserveBlock 0 1 (some 0)]).isOk =
        true :=
  ⟨rfl, rfl⟩

/-! ### Runs of reservations -/

/-- One reservation: the tag and size asked for, and the header address `caml_shared_try_alloc`
answers with. -/
structure Block where
  tag : Tag
  wosize : Mlsize
  hp : Nat
  deriving DecidableEq, Repr

/-- The reservation of the block, with the allocation succeeding. -/
def Block.step (blk : Block) : Step := .reserveBlock blk.tag blk.wosize (some blk.hp)

/-- The words of two blocks, headers included, do not overlap. -/
def Block.Disjoint (blk blk' : Block) : Prop :=
  blk.hp + blk.wosize.toNat + 1 ≤ blk'.hp ∨ blk'.hp + blk'.wosize.toNat + 1 ≤ blk.hp

instance (blk blk' : Block) : Decidable (blk.Disjoint blk') :=
  inferInstanceAs (Decidable (_ ∨ _))

/-- The heap after the headers of the blocks are written in order, each with colour `marked`. -/
def writeHeaders (marked : Header) (heap : Nat → Header) : List Block → Nat → Header
  | [] => heap
  | blk :: blocks =>
    writeHeaders marked (Function.update heap blk.hp (makeHeader blk.wosize blk.tag marked)) blocks

theorem run_blocks (b : Build) (m : Machine) (blocks : List Block) :
    run b m (blocks.map Block.step) = .ok ({ m with runtime := { m.runtime with
      allocatedWords := m.runtime.allocatedWords + (blocks.map fun blk ↦ whsizeWosize blk.wosize).sum,
      heap := writeHeaders m.runtime.camlGlobalHeapState.marked m.runtime.heap blocks } },
      blocks.map fun blk ↦ .returned (valHp blk.hp)) := by
  induction blocks generalizing m with
  | nil => simp [run, writeHeaders]
  | cons blk blocks ih =>
    rw [List.map_cons, run_cons_ok]
    refine ⟨_, _, _, rfl, (ih _).trans ?_, rfl⟩
    simp [writeHeaders, BitVec.add_assoc]

theorem writeHeaders_of_not_mem (marked : Header) (heap : Nat → Header) {a : Nat} :
    ∀ {blocks : List Block}, a ∉ blocks.map Block.hp → writeHeaders marked heap blocks a = heap a
  | [], _ => rfl
  | blk :: blocks, ha => by
    simp only [List.map_cons, List.mem_cons, not_or] at ha
    rw [writeHeaders, writeHeaders_of_not_mem marked _ ha.2, Function.update_noteq ha.1]

theorem writeHeaders_of_mem (marked : Header) (heap : Nat → Header) {blk : Block} :
    ∀ {blocks : List Block}, (blocks.map Block.hp).Nodup → blk ∈ blocks →
      writeHeaders marked heap blocks blk.hp = makeHeader blk.wosize blk.tag marked
  | [], _, hmem => absurd hmem (List.not_mem_nil blk)
  | blk' :: blocks, hnodup, hmem => by
    rw [List.map_cons, List.nodup_cons] at hnodup
    rcases List.mem_cons.mp hmem with rfl | hmem
    · rw [writeHeaders, writeHeaders_of_not_mem marked _ hnodup.1, Function.update_same]
    · rw [writeHeaders]
      exact writeHeaders_of_mem marked _ hnodup.2 hmem

theorem nodup_hp_of_pairwise_disjoint {blocks : List Block}
    (h : blocks.Pairwise Block.Disjoint) : (blocks.map Block.hp).Nodup := by
  rw [List.Nodup, List.pairwise_map]
  refine h.imp fun {blk blk'} hd heq ↦ ?_
  rcases hd with hd | hd <;> omega

theorem sum_whsizeWosize (blocks : List Block) :
    (blocks.map fun blk ↦ whsizeWosize blk.wosize).sum =
      BitVec.ofNat 64 (blocks.map fun blk ↦ blk.wosize.toNat + 1).sum := by
  induction blocks with
  | nil => rfl
  | cons blk blocks ih =>
    rw [List.map_cons, List.sum_cons, ih, List.map_cons, List.sum_cons, BitVec.ofNat_add,
      BitVec.ofNat_add, BitVec.ofNat_toNat, BitVec.setWidth_eq, whsizeWosize]
    rfl

/-! ### What the library writes -/

/-- Whether a step is a call into the library, not the runtime running between two calls. -/
def Step.isLibraryCall : Step → Bool
  | .runtime _ => false
  | _ => true

/-- The header addresses the allocator answered for the reservations of the steps, in order. -/
def allocations (steps : List Step) : List Nat :=
  steps.filterMap fun
    | .reserveBlock _ _ p => p
    | _ => none

/-- What the reservations of the steps add to `allocated_words`. -/
def reservedWords (steps : List Step) : Mlsize :=
  (steps.map fun
    | .reserveBlock _ wosize _ => whsizeWosize wosize
    | _ => 0).sum

/-- The handles the reservations of a run returned, in order. -/
def returnedHandles (events : List Event) : List Nat :=
  events.filterMap fun
    | .returned v => some v
    | .camlProcessPendingActions _ => none

theorem allocations_append (xs ys : List Step) :
    allocations (xs ++ ys) = allocations xs ++ allocations ys :=
  List.filterMap_append _ _ _

theorem reservedWords_append (xs ys : List Step) :
    reservedWords (xs ++ ys) = reservedWords xs + reservedWords ys := by
  rw [reservedWords, List.map_append, List.sum_append]
  rfl

theorem returnedHandles_append (e₁ e₂ : List Event) :
    returnedHandles (e₁ ++ e₂) = returnedHandles e₁ ++ returnedHandles e₂ :=
  List.filterMap_append _ _ _

/-- What the code of `ocamlpool.c` itself writes over a run of library calls from `m` to `m'` with
events `e`, with no runtime step between them: the young pointer, the end of the minor heap and
the heap statuses stay as they were, `allocated_words` grows by the sizes with headers of the
reservations, the shared heap changes only at the headers the allocator answered, and the handles
returned are `Val_hp` of those headers, in order. -/
structure LibraryFrame (m m' : Machine) (steps : List Step) (e : List Event) : Prop where
  camlYoungPtr_eq : m'.runtime.camlYoungPtr = m.runtime.camlYoungPtr
  camlYoungEnd_eq : m'.runtime.camlYoungEnd = m.runtime.camlYoungEnd
  camlGlobalHeapState_eq : m'.runtime.camlGlobalHeapState = m.runtime.camlGlobalHeapState
  allocatedWords_eq : m'.runtime.allocatedWords = m.runtime.allocatedWords + reservedWords steps
  heap_eq : ∀ a ∉ allocations steps, m'.runtime.heap a = m.runtime.heap a
  returnedHandles_eq : returnedHandles e = (allocations steps).map valHp

theorem LibraryFrame.trans {m m₁ m₂ : Machine} {xs ys : List Step} {e₁ e₂ : List Event}
    (h₁ : LibraryFrame m m₁ xs e₁) (h₂ : LibraryFrame m₁ m₂ ys e₂) :
    LibraryFrame m m₂ (xs ++ ys) (e₁ ++ e₂) where
  camlYoungPtr_eq := h₂.camlYoungPtr_eq.trans h₁.camlYoungPtr_eq
  camlYoungEnd_eq := h₂.camlYoungEnd_eq.trans h₁.camlYoungEnd_eq
  camlGlobalHeapState_eq := h₂.camlGlobalHeapState_eq.trans h₁.camlGlobalHeapState_eq
  allocatedWords_eq := by
    rw [h₂.allocatedWords_eq, h₁.allocatedWords_eq, reservedWords_append, BitVec.add_assoc]
  heap_eq a ha := by
    rw [allocations_append, List.mem_append, not_or] at ha
    rw [h₂.heap_eq a ha.2, h₁.heap_eq a ha.1]
  returnedHandles_eq := by
    rw [returnedHandles_append, allocations_append, List.map_append, h₁.returnedHandles_eq,
      h₂.returnedHandles_eq]

/-- Each library call, taken alone. -/
theorem libraryFrame_step {b : Build} {m m₁ : Machine} {s : Step} {e₁ : List Event}
    (hs : s.isLibraryCall = true) (h : step b m s = .ok (m₁, e₁)) : LibraryFrame m m₁ [s] e₁ := by
  have hzero : m.runtime.allocatedWords = m.runtime.allocatedWords + 0 := (BitVec.add_zero _).symm
  cases s with
  | enter =>
    obtain ⟨-, rfl, rfl⟩ := step_enter_ok.mp h
    exact ⟨rfl, rfl, rfl, hzero, fun _ _ ↦ rfl, rfl⟩
  | leave =>
    obtain ⟨-, rfl, rfl⟩ := step_leave_ok.mp h
    exact ⟨rfl, rfl, rfl, hzero, fun _ _ ↦ rfl, rfl⟩
  | reserveBlock tag wosize p =>
    obtain ⟨hp, rfl, rfl, rfl⟩ := step_reserveBlock_ok.mp h
    refine ⟨rfl, rfl, rfl, ?_, fun a ha ↦ Function.update_noteq (List.ne_of_not_mem_cons ha) _ _, rfl⟩
    rw [reservedWords, List.map_singleton, List.sum_singleton]
  | runtime rt => cases hs

/-- Assumes: the steps are library calls, with no runtime step between them. In every build, over
a run of them that completes, the code of `ocamlpool.c` moves neither the young pointer nor the end
of the minor heap, leaves the heap statuses alone, adds the sizes with headers of its reservations
to `allocated_words`, writes the shared heap only at the headers the allocator answered, and
returns `Val_hp` of those headers, in order. The runtime's own work inside these calls,
`caml_process_pending_actions` in a leave and the allocator's bookkeeping in a reservation, is a
runtime step of the model and is not part of this statement. -/
theorem libraryFrame_of_run {b : Build} {m m' : Machine} {steps : List Step} {e : List Event}
    (hlib : ∀ s ∈ steps, s.isLibraryCall = true) (h : run b m steps = .ok (m', e)) :
    LibraryFrame m m' steps e := by
  induction steps generalizing m e with
  | nil =>
    cases h
    exact ⟨rfl, rfl, rfl, (BitVec.add_zero _).symm, fun _ _ ↦ rfl, rfl⟩
  | cons s steps ih =>
    obtain ⟨m₁, e₁, e₂, h₁, h₂, rfl⟩ := run_cons_ok.mp h
    exact (libraryFrame_step (hlib s (List.mem_cons_self s steps)) h₁).trans
      (ih (fun s' hs' ↦ hlib s' (List.mem_cons_of_mem s hs')) h₂)

/-- A section from program start with two reservations, the second block right after the
first. -/
theorem libraryFrame_of_run_section :
    (∀ s ∈ [Step.enter, .reserveBlock 0 2 (some 8), .reserveBlock 3 1 (some 11), .leave],
        s.isLibraryCall = true) ∧
      ∃ m' e, run .default (loaded emptyRuntime)
          [.enter, .reserveBlock 0 2 (some 8), .reserveBlock 3 1 (some 11), .leave] = .ok (m', e) ∧
        LibraryFrame (loaded emptyRuntime) m'
          [.enter, .reserveBlock 0 2 (some 8), .reserveBlock 3 1 (some 11), .leave] e :=
  have hlib : ∀ s ∈ [Step.enter, .reserveBlock 0 2 (some 8), .reserveBlock 3 1 (some 11), .leave],
      s.isLibraryCall = true := by decide
  ⟨hlib, _, _, rfl, libraryFrame_of_run (b := .default) hlib rfl⟩

/-- Assumes: the allocator hands out pairwise disjoint blocks. Every handle of a run of
reservations finds its own header in front of it. -/
theorem hdVal_writeHeaders {marked : Header} {heap : Nat → Header} {blocks : List Block}
    (hdisjoint : blocks.Pairwise Block.Disjoint) {blk : Block} (hmem : blk ∈ blocks) :
    hdVal (writeHeaders marked heap blocks) (valHp blk.hp) = makeHeader blk.wosize blk.tag marked := by
  rw [hdVal_valHp, writeHeaders_of_mem marked heap (nodup_hp_of_pairwise_disjoint hdisjoint) hmem]

/-- Assumes: tags below 256, sizes at most `Max_wosize`, and pairwise disjoint blocks from the
allocator. A run of reservations returns every handle, each handle reads back the tag, the size
and the colour it was reserved with, and the allocation counter grows by the sizes with headers,
which are the sizes the headers give. -/
theorem reserveBlock_round_trip (b : Build) (m : Machine) (blocks : List Block)
    (hrange : ∀ blk ∈ blocks, blk.tag.toNat < 2 ^ 8 ∧ blk.wosize ≤ maxWosize)
    (hdisjoint : blocks.Pairwise Block.Disjoint) :
    ∃ m' : Machine,
      run b m (blocks.map Block.step) = .ok (m', blocks.map fun blk ↦ .returned (valHp blk.hp)) ∧
      (∀ blk ∈ blocks,
        tagVal m'.runtime.heap (valHp blk.hp) = blk.tag ∧
        wosizeVal m'.runtime.heap (valHp blk.hp) = blk.wosize ∧
        colorVal m'.runtime.heap (valHp blk.hp) = m.runtime.camlGlobalHeapState.marked) ∧
      m'.runtime.allocatedWords =
        m.runtime.allocatedWords + BitVec.ofNat 64 (blocks.map fun blk ↦ blk.wosize.toNat + 1).sum ∧
      (blocks.map fun blk ↦ (whsizeVal m'.runtime.heap (valHp blk.hp)).toNat).sum =
        (blocks.map fun blk ↦ blk.wosize.toNat + 1).sum := by
  have hcolor := m.runtime.camlGlobalHeapState.colorHd_marked
  refine ⟨_, run_blocks b m blocks, fun blk hmem ↦ ?_, by rw [sum_whsizeWosize], ?_⟩
  · obtain ⟨htag, hwosize⟩ := hrange blk hmem
    simp only [tagVal, wosizeVal, colorVal, hdVal_writeHeaders hdisjoint hmem]
    exact ⟨tagHd_makeHeader hcolor htag, wosizeHd_makeHeader hcolor hwosize htag,
      colorHd_makeHeader hcolor hwosize htag⟩
  · refine congrArg List.sum (List.map_congr_left fun blk hmem ↦ ?_)
    obtain ⟨htag, hwosize⟩ := hrange blk hmem
    rw [whsizeVal, hdVal_writeHeaders hdisjoint hmem, toNat_whsizeHd_makeHeader hcolor hwosize htag]

/-- The two reservations of the spec's scenario, inside an open section. -/
theorem reserveBlock_round_trip_scenario :
    (∀ blk ∈ [Block.mk 0 3 0, Block.mk 5 0 4], blk.tag.toNat < 2 ^ 8 ∧ blk.wosize ≤ maxWosize) ∧
    [Block.mk 0 3 0, Block.mk 5 0 4].Pairwise Block.Disjoint ∧
    ∃ m' : Machine,
      run .default ⟨1, 64, emptyRuntime⟩ ([Block.mk 0 3 0, Block.mk 5 0 4].map Block.step) =
        .ok (m', [Block.mk 0 3 0, Block.mk 5 0 4].map fun blk ↦ .returned (valHp blk.hp)) ∧
      (∀ blk ∈ [Block.mk 0 3 0, Block.mk 5 0 4],
        tagVal m'.runtime.heap (valHp blk.hp) = blk.tag ∧
        wosizeVal m'.runtime.heap (valHp blk.hp) = blk.wosize ∧
        colorVal m'.runtime.heap (valHp blk.hp) = emptyRuntime.camlGlobalHeapState.marked) ∧
      m'.runtime.allocatedWords = emptyRuntime.allocatedWords +
        BitVec.ofNat 64 ([Block.mk 0 3 0, Block.mk 5 0 4].map fun blk ↦ blk.wosize.toNat + 1).sum ∧
      ([Block.mk 0 3 0, Block.mk 5 0 4].map fun blk ↦
          (whsizeVal m'.runtime.heap (valHp blk.hp)).toNat).sum =
        ([Block.mk 0 3 0, Block.mk 5 0 4].map fun blk ↦ blk.wosize.toNat + 1).sum :=
  have hrange : ∀ blk ∈ [Block.mk 0 3 0, Block.mk 5 0 4],
      blk.tag.toNat < 2 ^ 8 ∧ blk.wosize ≤ maxWosize := by decide
  have hdisjoint : [Block.mk 0 3 0, Block.mk 5 0 4].Pairwise Block.Disjoint := by decide
  ⟨hrange, hdisjoint, reserveBlock_round_trip .default ⟨1, 64, emptyRuntime⟩ _ hrange hdisjoint⟩

/-- A tag of 256, a `tag_t` value, reads back as tag 0 and turns the colour from `MARKED` into the
next status. -/
theorem reserveBlock_tag_carry :
    ∃ m' : Machine,
      run .default (loaded emptyRuntime) [.enter, Block.step ⟨256, 0, 0⟩] =
        .ok (m', [.returned (valHp 0)]) ∧
      tagVal m'.runtime.heap (valHp 0) = 0 ∧
      colorVal m'.runtime.heap (valHp 0) = emptyRuntime.camlGlobalHeapState.marked + 256 :=
  ⟨_, rfl, by decide, by decide⟩

end OCamlPool
