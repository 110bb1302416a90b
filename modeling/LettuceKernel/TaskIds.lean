import LettuceKernel.Scheduler
/-!
# Task identifiers (`kernel/main/task.c`)

A task id is its slot and the generation the slot had when the task was created;
`lettuce_task_terminate` moves the generation on. So ids are never given twice before a
generation wraps, and a live task answers to its own id only.

`lettuce_task_get` however checks the generation against the slot and only one of the two free
states (`state == UNUSED`, task.c:103). A terminated slot carries the generation of the *next*
task already, so the id that task will get resolves to the dead record: `NamesTerminated`. For
every other id the lookup is right.
-/

namespace Lettuce

open Runs

inductive TaskCall where
  | create (serviceId : ServiceId) (domainId : DomainId) (entryPc stackTop : Reg)
  | terminate (id : TaskId)

def taskStep (t : TaskTable) : TaskCall → TaskTable
  | .create serviceId domainId entryPc stackTop => (taskCreate t serviceId domainId entryPc stackTop).1
  | .terminate id => taskTerminate t id

abbrev TaskHistory := List (TaskTable × TaskCall)

/-- The call creates a task in slot `i` and gives it the id `id`. -/
def GivesId (id : TaskId) (i : Slot) (t : TaskTable) : TaskCall → Prop
  | .create serviceId domainId entryPc stackTop =>
    (taskCreate t serviceId domainId entryPc stackTop).2 = some i ∧
      ((taskCreate t serviceId domainId entryPc stackTop).1 i).id = id
  | .terminate _ => False

/-- The call terminates the task `id`. -/
def EndsId (id : TaskId) (t : TaskTable) : TaskCall → Prop
  | .terminate id' => id' = id ∧ taskGet t id ≠ none
  | .create .. => False

/-- `id` was given to a task created in slot `i` that has not been terminated since. -/
def Denotes (h : TaskHistory) (id : TaskId) (i : Slot) : Prop := Since (GivesId id i) (EndsId id) h

/-- The id a call gives to a new task. -/
def idGiven (t : TaskTable) : TaskCall → Option TaskId
  | .create serviceId domainId entryPc stackTop =>
    (taskCreate t serviceId domainId entryPc stackTop).2.map fun i =>
      ((taskCreate t serviceId domainId entryPc stackTop).1 i).id
  | .terminate _ => none

def givenIds (h : TaskHistory) : List TaskId := h.filterMap fun p => idGiven p.1 p.2

/-- How many terminations of the run found a record. -/
def terminations : TaskHistory → Nat
  | [] => 0
  | (t, .terminate id) :: h => terminations h + if taskGet t id = none then 0 else 1
  | (_, .create ..) :: h => terminations h

/-- `lettuce_task_get(id)` is the record of the live task `id`, and null if there is none. -/
def LookupRight (h : TaskHistory) (t : TaskTable) (id : TaskId) : Prop := ∀ i, taskGet t id = some i ↔ Denotes h id i

/-- `id` is what the next task in a terminated slot will be called. -/
def NamesTerminated (t : TaskTable) (id : TaskId) : Prop :=
  ∃ i, (t i).state = .terminated ∧ id = makeTaskId (t i).generation i

/-! ## Identifiers and lookups -/

theorem makeTaskId_inj {g g' : BitVec 16} {i i' : Slot} (h : makeTaskId g i = makeTaskId g' i') : g = g' ∧ i = i' := by
  have hhigh := makeTaskId_high g i
  have hlow := makeTaskId_low g i
  rw [h, makeTaskId_high] at hhigh
  rw [h, makeTaskId_low] at hlow
  exact ⟨hhigh.symm, Fin.ext hlow.symm⟩

theorem taskGet_eq_some {t : TaskTable} {id : TaskId} {i : Slot} :
    taskGet t id = some i ↔ id = makeTaskId (t i).generation i ∧ (t i).state ≠ .unused := by
  constructor
  · intro h
    unfold taskGet at h
    split at h
    · rename_i hlt
      dsimp only at h
      split at h
      · cases h
      · rename_i hgen
        split at h
        · cases h
        · rename_i hst
          cases h
          refine ⟨BitVec.eq_of_toNat_eq ?_, hst⟩
          rw [makeTaskId_toNat, not_not.1 hgen, PackedWord.high_toNat]
          simp only [PackedWord.low_toNat]
          omega
    · cases h
  · rintro ⟨rfl, hst⟩
    rw [taskGet_makeTaskId, if_pos ⟨rfl, hst⟩]

/-- A creation takes a free slot and names the task after its generation. -/
theorem taskCreate_cases (t : TaskTable) (serviceId : ServiceId) (domainId : DomainId) (entryPc stackTop : Reg) :
    taskCreate t serviceId domainId entryPc stackTop = (t, none) ∨
    ∃ i task, (taskCreate t serviceId domainId entryPc stackTop) = (Function.update t i task, some i) ∧
      ¬ (t i).Live ∧ task.state = .ready ∧ task.id = makeTaskId task.generation i ∧
      ((t i).generation ≠ 0 → task.generation = (t i).generation) := by
  unfold taskCreate
  split
  · exact Or.inl rfl
  · rename_i i hi
    refine Or.inr ⟨i, _, rfl, ?_, rfl, rfl, fun hne => if_neg hne⟩
    rintro ⟨hu, ht⟩
    rcases freeTaskSlot_eq_some hi with h | h
    · exact hu h
    · exact ht h

theorem taskTerminate_cases (t : TaskTable) (id : TaskId) :
    (taskGet t id = none ∧ taskTerminate t id = t) ∨
    ∃ i, taskGet t id = some i ∧ taskTerminate t id = Function.update t i (t i).terminate := by
  unfold taskTerminate
  cases hg : taskGet t id with
  | none => exact Or.inl ⟨rfl, rfl⟩
  | some i => exact Or.inr ⟨i, rfl, rfl⟩

theorem Task.terminate_generation {task : Task} (h : task.generation.toNat < 65535) :
    task.terminate.generation.toNat = task.generation.toNat + 1 := by
  have hsum : (task.generation + 1).toNat = task.generation.toNat + 1 := by
    rw [BitVec.toNat_add, show (1 : BitVec 16).toNat = 1 from rfl]
    omega
  have hne : task.generation + 1 ≠ 0 := fun he => by
    rw [he] at hsum
    simp at hsum
  rw [Task.terminate]
  dsimp only
  rw [if_neg hne, hsum]

/-! ## What the history says about the table -/

/-- Generations count the terminations of their slot; an id given before is behind its slot or
belongs to the live task there. -/
structure IdsRep (h : TaskHistory) (t : TaskTable) : Prop where
  pos : ∀ i, 1 ≤ (t i).generation.toNat
  le : ∀ i, (t i).generation.toNat ≤ terminations h + 1
  given : ∀ id ∈ givenIds h, ∃ i, ∃ g : BitVec 16, id = makeTaskId g i ∧
    (g.toNat < (t i).generation.toNat ∨ (g = (t i).generation ∧ (t i).Live))
  distinct : (givenIds h).Nodup
  denotes : ∀ id i, Denotes h id i ↔ (t i).Live ∧ id = makeTaskId (t i).generation i

section
variable {h : TaskHistory} {t : TaskTable}

theorem IdsRep.init : IdsRep [] taskInit := by
  refine ⟨fun i => ?_, fun i => ?_, nofun, List.nodup_nil, fun id i => ?_⟩
  · exact (by decide : 1 ≤ (1 : BitVec 16).toNat)
  · exact (by decide : (1 : BitVec 16).toNat ≤ 1)
  · exact iff_of_false (fun hd => hd) fun hl => hl.1.1 rfl

theorem terminations_cons (t : TaskTable) (c : TaskCall) (h : TaskHistory) :
    terminations h ≤ terminations ((t, c) :: h) := by
  cases c with
  | create serviceId domainId entryPc stackTop => exact Nat.le_refl _
  | terminate id => exact Nat.le_add_right _ _

/-- The id a free slot gives next has not been given before. -/
theorem IdsRep.not_given (hr : IdsRep h t) {i : Slot} (hfree : ¬ (t i).Live) : makeTaskId (t i).generation i ∉ givenIds h := by
  intro hmem
  obtain ⟨j, g, heqid, hold⟩ := hr.given _ hmem
  obtain ⟨rfl, rfl⟩ := makeTaskId_inj heqid
  rcases hold with hlt | ⟨-, hl⟩
  · exact Nat.lt_irrefl _ hlt
  · exact hfree hl

theorem IdsRep.create (hr : IdsRep h t) (serviceId : ServiceId) (domainId : DomainId) (entryPc stackTop : Reg) :
    IdsRep ((t, .create serviceId domainId entryPc stackTop) :: h)
      (taskStep t (.create serviceId domainId entryPc stackTop)) := by
  have hsince : ∀ id i, Denotes ((t, .create serviceId domainId entryPc stackTop) :: h) id i ↔
      GivesId id i t (.create serviceId domainId entryPc stackTop) ∨ Denotes h id i := by
    intro id i
    simp only [Denotes, Since, EndsId, not_false_eq_true, true_and]
  rcases taskCreate_cases t serviceId domainId entryPc stackTop with heq | ⟨i, task, heq, hfree, hready, hid, hgen⟩
  · have hids : givenIds ((t, .create serviceId domainId entryPc stackTop) :: h) = givenIds h := by
      simp [givenIds, idGiven, heq]
    rw [show taskStep t (.create serviceId domainId entryPc stackTop) = t by rw [taskStep, heq]]
    refine ⟨hr.pos, hr.le, hids ▸ hr.given, hids ▸ hr.distinct, fun id i => ?_⟩
    rw [hsince, ← hr.denotes]
    simp [GivesId, heq]
  · have hpos := hr.pos i
    have hg : task.generation = (t i).generation := hgen fun he => by
      rw [he] at hpos
      exact absurd hpos (by decide)
    have hlive : task.Live := live_of_state hready (by decide)
    have hids : givenIds ((t, .create serviceId domainId entryPc stackTop) :: h) =
        makeTaskId (t i).generation i :: givenIds h := by
      simp [givenIds, idGiven, heq, hid, hg]
    rw [show taskStep t (.create serviceId domainId entryPc stackTop) = Function.update t i task by
      rw [taskStep, heq]]
    have hsame : ∀ j, (Function.update t i task j).generation = (t j).generation :=
      update_related (R := fun t t' => t'.generation = t.generation) (fun _ => rfl) hg
    refine ⟨fun j => ?_, fun j => ?_, ?_, ?_, fun id j => ?_⟩
    · rw [hsame]; exact hr.pos j
    · rw [hsame]; exact hr.le j
    · rw [hids]
      intro id hmem
      rcases List.mem_cons.1 hmem with rfl | hmem
      · exact ⟨i, _, rfl, Or.inr ⟨(hsame i).symm, by rw [Function.update_self]; exact hlive⟩⟩
      · obtain ⟨j, g, rfl, hold⟩ := hr.given _ hmem
        refine ⟨j, g, rfl, ?_⟩
        rw [hsame]
        refine hold.imp_right fun ⟨hgj, hl⟩ => ⟨hgj, ?_⟩
        have hji : j ≠ i := by rintro rfl; exact hfree hl
        rw [Function.update_of_ne hji]
        exact hl
    · rw [hids]
      exact List.nodup_cons.2 ⟨hr.not_given hfree, hr.distinct⟩
    · rw [hsince, hr.denotes, hsame]
      simp only [GivesId, heq, Option.some.injEq]
      by_cases hj : j = i
      · subst hj
        rw [Function.update_self, hid, hg]
        constructor
        · rintro (⟨-, rfl⟩ | ⟨hl, -⟩)
          · exact ⟨hlive, rfl⟩
          · exact absurd hl hfree
        · rintro ⟨-, rfl⟩
          exact Or.inl ⟨rfl, rfl⟩
      · rw [Function.update_of_ne hj]
        simp [Ne.symm hj]

theorem IdsRep.terminate (hr : IdsRep h t) (id : TaskId) (hc : terminations ((t, .terminate id) :: h) < 65535) :
    IdsRep ((t, .terminate id) :: h) (taskStep t (.terminate id)) := by
  have hids : givenIds ((t, .terminate id) :: h) = givenIds h := by simp [givenIds, idGiven]
  have hsince : ∀ id' i, Denotes ((t, .terminate id) :: h) id' i ↔
      ¬ (id = id' ∧ taskGet t id' ≠ none) ∧ Denotes h id' i := by
    intro id' i
    simp only [Denotes, Since, GivesId, EndsId, false_or]
  rcases taskTerminate_cases t id with ⟨hnone, heq⟩ | ⟨i, hsome, heq⟩
  · have hcount : terminations ((t, .terminate id) :: h) = terminations h := by simp [terminations, hnone]
    rw [show taskStep t (.terminate id) = t from heq]
    refine ⟨hr.pos, hcount ▸ hr.le, hids ▸ hr.given, hids ▸ hr.distinct, fun id' j => ?_⟩
    rw [hsince, hr.denotes]
    refine and_iff_right_of_imp fun _ => ?_
    rintro ⟨rfl, hne⟩
    exact hne hnone
  · have hcount : terminations ((t, .terminate id) :: h) = terminations h + 1 := by simp [terminations, hsome]
    obtain ⟨rfl, -⟩ := taskGet_eq_some.1 hsome
    have hnext : (t i).terminate.generation.toNat = (t i).generation.toNat + 1 := by
      have hle := hr.le i
      exact Task.terminate_generation (by omega)
    have hdead : ¬ (t i).terminate.Live := fun hl => hl.2 rfl
    rw [show taskStep t (.terminate (makeTaskId (t i).generation i)) = Function.update t i (t i).terminate from heq]
    refine ⟨fun j => ?_, fun j => ?_, ?_, hids ▸ hr.distinct, fun id' j => ?_⟩
    · by_cases hj : j = i
      · subst hj; rw [Function.update_self, hnext]; omega
      · rw [Function.update_of_ne hj]; exact hr.pos j
    · have hle := hr.le j
      by_cases hj : j = i
      · subst hj; rw [Function.update_self, hnext]; omega
      · rw [Function.update_of_ne hj]; omega
    · rw [hids]
      intro id' hmem
      obtain ⟨j, g, rfl, hold⟩ := hr.given _ hmem
      refine ⟨j, g, rfl, ?_⟩
      by_cases hj : j = i
      · subst hj
        rw [Function.update_self, hnext]
        left
        rcases hold with hlt | ⟨rfl, -⟩ <;> omega
      · rw [Function.update_of_ne hj]; exact hold
    · rw [hsince, hr.denotes]
      by_cases hj : j = i
      · subst hj
        rw [Function.update_self]
        refine iff_of_false ?_ fun hl => hdead hl.1
        rintro ⟨hnot, -, rfl⟩
        exact hnot ⟨rfl, by simp [hsome]⟩
      · rw [Function.update_of_ne hj]
        refine and_iff_right_of_imp ?_
        rintro ⟨-, rfl⟩ ⟨hsame, -⟩
        exact hj (makeTaskId_inj hsame).2.symm

theorem IdsRep.run (r : Run anyStep taskStep taskInit h t) : terminations h < 65535 → IdsRep h t := by
  induction r with
  | start => exact fun _ => IdsRep.init
  | @next h t r c _ ih =>
    intro hc
    have hcount := terminations_cons t c h
    have hr := ih (by omega)
    cases c with
    | create serviceId domainId entryPc stackTop => exact hr.create serviceId domainId entryPc stackTop
    | terminate id => exact hr.terminate id hc

/-- A record found by its id belongs to a live task, or is a terminated one. -/
theorem IdsRep.lookupRight_iff (hr : IdsRep h t) (id : TaskId) : LookupRight h t id ↔ ¬ NamesTerminated t id := by
  unfold LookupRight
  constructor
  · rintro hright ⟨i, hdead, rfl⟩
    have hfound : taskGet t (makeTaskId (t i).generation i) = some i := taskGet_eq_some.2 ⟨rfl, by simp [hdead]⟩
    have hlive := ((hr.denotes _ i).1 ((hright i).1 hfound)).1
    exact hlive.2 hdead
  · intro hnot i
    rw [taskGet_eq_some, hr.denotes, and_comm]
    refine and_congr_left fun hid => ⟨fun hu => ⟨hu, fun hdead => hnot ⟨i, hdead, hid⟩⟩, fun hl => hl.1⟩

end

/-- **Task ids are never given twice, and denote live tasks only, but for the ids that terminated
slots will give next**: in every run of creations and terminations with any ids and fewer
than 65535 effective terminations. -/
theorem task_ids_denote_live_iff {h : TaskHistory} {t : TaskTable} (r : Run anyStep taskStep taskInit h t)
    (hc : terminations h < 65535) :
    (givenIds h).Nodup ∧ ∀ id, LookupRight h t id ↔ ¬ NamesTerminated t id :=
  ⟨(IdsRep.run r hc).distinct, (IdsRep.run r hc).lookupRight_iff⟩

/-- One task created and terminated. -/
def terminatedCalls : List TaskCall := [.create 10 100 0x1000 0x2000, .terminate (makeTaskId 1 firstSlot)]

/-- Its own id is dead; no other id is affected. -/
theorem task_ids_denote_live_iff_stale :
    LookupRight (traceFrom taskStep [] taskInit terminatedCalls).1 (traceFrom taskStep [] taskInit terminatedCalls).2
      (makeTaskId 1 firstSlot) := by
  have r : Run anyStep taskStep taskInit _ _ := Run.start.trace (admits_anyStep _ terminatedCalls)
  refine ((task_ids_denote_live_iff r (by decide +kernel)).2 _).2 ?_
  rintro ⟨i, hdead, hid⟩
  obtain ⟨hgen, rfl⟩ := makeTaskId_inj hid
  exact absurd hgen (by decide +kernel)

/-- The id of generation 2 resolves to the terminated record, though no task ever had it. -/
theorem future_id_resolves :
    ¬ ∀ h t, Run anyStep taskStep taskInit h t → terminations h < 65535 → (givenIds h).Nodup ∧ ∀ id, LookupRight h t id := by
  intro hall
  have r : Run anyStep taskStep taskInit _ _ := Run.start.trace (admits_anyStep _ terminatedCalls)
  have hfound : taskGet (traceFrom taskStep [] taskInit terminatedCalls).2 (makeTaskId 2 firstSlot) = some firstSlot := by
    decide +kernel
  have hgiven := (((hall _ _ r (by decide +kernel)).2 _) firstSlot).1 hfound
  obtain ⟨p, hp, hgives⟩ := hgiven.exists_mem
  simp only [terminatedCalls, traceFrom, List.mem_cons, List.not_mem_nil, or_false] at hp
  rcases hp with rfl | rfl
  · exact hgives
  · exact absurd hgives.2 (by decide +kernel)

end Lettuce
