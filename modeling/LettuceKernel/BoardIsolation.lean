import LettuceKernel.BoardInvariant
import LettuceKernel.Lib.Unwinding
/-!
# Isolation over whole runs of the board

Whatever EL0 does and the TLB is filled with, an address is translated as by the tables of the current domain at boot
(`board_translates_as_booted`). A domain's private page and stack change only while it runs
(`own_pages_change_at_home`), and nothing the other domains load, print or are scheduled by depends on them
(`own_pages_invisible`). Two things are asked of the events there: the domain itself makes no system call, and
nobody sleeps on a request whose `tv_nsec` lies in kernel memory, which `nanosleep` reads before it tests the
pointer (`nanosleep_hides_iff`). Every other access of the kernel through a pointer
stays in pages of the caller's domain or in the device blocks (`kernel_accesses_confined`).
-/

namespace Lettuce

open Runs Translation

section
variable {b b' : Board}

/-- The two boards differ at most in the pages of domain `d`. -/
structure Board.AgreeOutside (L : Layout) (d : DomainId) (b b' : Board) : Prop where
  machine : b.machine = b'.machine
  tlb : b.tlb = b'.tlb
  console : b.console = b'.console
  fds : b.fds = b'.fds
  frequency : b.frequency = b'.frequency
  memory : ∀ pa, ¬ L.Own d pa → b.memory pa = b'.memory pa

/-- What the other domains load. -/
def seenOutside (d : DomainId) (b : Board) : BoardEvent → Option (BitVec 8)
  | .load va => if b.machine.inEl0 ∧ b.domain ≠ d then b.el0Load va else none
  | _ => none

/-- Domain `d` makes no system call, and `nanosleep` finds its `tv_nsec` outside kernel memory. -/
def Discreet (d : DomainId) (b : Board) (e : BoardEvent) : Prop :=
  BoardOk b e ∧
    match e with
    | .syscall frame _ _ =>
      b.domain ≠ d ∧ (syscallOf frame.sysNo = some .nanosleep → inSupervisorMemory (frame.arg0 + nsecOffset) = false)
    | _ => True

/-! ## Boards that translate alike -/

theorem reaches_congr (ht : ∀ access va, b.target access va = b'.target access va) (a : UserAccess) (i : Nat) :
    b.reaches a i = b'.reaches a i := by
  rw [Board.reaches, ht, Board.reaches]

theorem completes_congr (ht : ∀ access va, b.target access va = b'.target access va) : b.completes = b'.completes := by
  funext a
  rw [Board.completes, Board.completes, funext (reaches_congr ht a)]

theorem putByte_congr (ht : ∀ access va, b.target access va = b'.target access va) {m m' : ByteMemory.Memory 64} {pa : Reg}
    (hm : m pa = m' pa) (va : Reg) (x : BitVec 8) : b.putByte m va x pa = b'.putByte m' va x pa := by
  unfold Board.putByte
  rw [← ht]
  cases b.target Leaf.el1Write va with
  | none => exact hm
  | some p =>
    dsimp only
    split
    · exact hm
    · by_cases hpa : pa = p
      · rw [hpa, Function.update_self, Function.update_self]
      · rw [Function.update_of_ne hpa, Function.update_of_ne hpa, hm]

theorem foldl_congr_at {α β γ : Type} {f f' : (β → γ) → α → β → γ} {l : List α} {m m' : β → γ} {p : β} (hm : m p = m' p)
    (hf : ∀ x ∈ l, ∀ m m', m p = m' p → f m x p = f' m' x p) : l.foldl f m p = l.foldl f' m' p := by
  induction l generalizing m m' with
  | nil => exact hm
  | cons x l ih =>
    exact ih (hf x (List.mem_cons_self ..) _ _ hm) fun y hy => hf y (List.mem_cons_of_mem _ hy)

theorem writeBack_congr (ht : ∀ access va, b.target access va = b'.target access va) {a : UserAccess}
    {value value' m m' : ByteMemory.Memory 64} {pa : Reg} (hm : m pa = m' pa)
    (hvalue : a.write = true → ∀ i, i < a.length → value (a.address + BitVec.ofNat 64 i) = value' (a.address + BitVec.ofNat 64 i)) :
    b.writeBack value m a pa = b'.writeBack value' m' a pa := by
  unfold Board.writeBack
  split
  · rename_i hwrite
    refine foldl_congr_at hm fun i hi m m' hmm => ?_
    rw [hvalue hwrite i (List.mem_range.1 hi)]
    exact putByte_congr ht hmm _ _
  · exact hm

theorem map_takeWhile_congr {α β : Type} {p : α → Bool} {f g : α → β} {l : List α}
    (h : ∀ first x rest, l = first ++ x :: rest → (∀ y ∈ first, p y = true) → p x = true → f x = g x) :
    (l.takeWhile p).map f = (l.takeWhile p).map g := by
  refine List.map_congr_left fun x hx => ?_
  obtain ⟨first, rest, hsplit⟩ := List.append_of_mem hx
  obtain ⟨⟨rest', hl⟩, hpx, hfirst⟩ := takeWhile_split hsplit
  exact h first x rest' hl hfirst hpx

end

/-! ## One step, side by side -/

section
variable {L : Layout} {before : Translation.Memory} {b b' : Board} {d : DomainId}

theorem Board.AgreeOutside.domain (h : Board.AgreeOutside L d b b') : b.domain = b'.domain := by
  rw [Board.domain, h.machine, Board.domain]

theorem Board.AgreeOutside.target (hL : L.WellPlaced) (h : Board.AgreeOutside L d b b') (hs : b.Sound L before)
    (hs' : b'.Sound L before) (access : Leaf → Bool) (va : Reg) : b.target access va = b'.target access va := by
  rw [Board.target, Board.target, Board.Sound.translate hL hs, Board.Sound.translate hL hs', h.domain]

/-- Pages that another domain reads. -/
theorem not_own_of_read (hL : L.WellPlaced) (hs : b.Sound L before) (hd : KnownDomain d) (hne : b.domain ≠ d) {pa : Reg}
    (h : L.Own b.domain pa ∨ L.Common pa) : ¬ L.Own d pa := by
  intro hown
  obtain ⟨hother, hcommon⟩ := own_private hL hd hs.machine.domain (Ne.symm hne) hown
  exact h.elim hother hcommon

theorem Board.AgreeOutside.el0Load (hL : L.WellPlaced) (h : Board.AgreeOutside L d b b') (hs : b.Sound L before)
    (hs' : b'.Sound L before) (hd : KnownDomain d) (hne : b.domain ≠ d) (va : Reg) : b.el0Load va = b'.el0Load va := by
  rw [Board.el0Load, Board.el0Load, ← h.target hL hs hs']
  cases htarget : b.target Leaf.el0Read va with
  | none => rfl
  | some pa =>
    rw [Option.map_some, Option.map_some, h.memory pa (not_own_of_read hL hs hd hne (Board.Sound.target_el0Read hL hs htarget))]

/-- A byte outside kernel memory looks the same to the kernel. -/
theorem Board.AgreeOutside.view (hL : L.WellPlaced) (h : Board.AgreeOutside L d b b') (hs : b.Sound L before)
    (hs' : b'.Sound L before) (hd : KnownDomain d) (hne : b.domain ≠ d) (device : ByteMemory.Memory 64) {va : Reg}
    (hva : inSupervisorMemory va = false) : b.view device va = b'.view device va := by
  rw [Board.view, Board.view, ← h.target hL hs hs']
  cases htarget : b.target Leaf.el1Read va with
  | none => rfl
  | some pa =>
    dsimp only
    split
    · rfl
    · rename_i hdevice
      rcases Board.Sound.target_el1 hL hs (show b.target (Board.el1Access false) va = some pa from htarget) hva with hdev | ⟨hpage, -⟩
      · exact absurd hdev hdevice
      · exact h.memory pa (not_own_of_read hL hs hd hne hpage)

/-- The board halts at the access to `tv_nsec`. -/
theorem syscall_halts (arch : Arch) (b : Board) {frame : TrapFrame} {counter : BitVec 64} {device : ByteMemory.Memory 64}
    (hcall : syscallOf frame.sysNo = some .nanosleep) (hreq : frame.arg0 ≠ 0)
    (hfalse : b.completes ⟨frame.arg0 + nsecOffset, 8, false⟩ = false) :
    b.syscall arch frame counter device = { b with machine := { b.machine with exec := .halted } } := by
  obtain ⟨rest, hlist⟩ : ∃ rest, userAccesses (b.services counter device) frame = ⟨frame.arg0 + nsecOffset, 8, false⟩ :: rest := by
    simp only [userAccesses, hcall, if_neg hreq]
    exact ⟨_, rfl⟩
  have hprinted : b.printed (b.services counter device) frame = [] := by
    simp only [Board.printed, hcall]
  simp only [Board.syscall, hlist, List.all_cons, hfalse, Bool.false_and, List.takeWhile_cons, Bool.false_eq_true, if_false,
    List.foldl_nil, hprinted, List.append_nil]

/-- An index of a range comes behind all smaller ones. -/
theorem range_split {n i : Nat} {first rest : List Nat} (h : List.range n = first ++ i :: rest) :
    i < n ∧ ∀ j, j < i → j ∈ first := by
  have hlt : i < n := List.mem_range.1 (h ▸ by simp)
  refine ⟨hlt, fun j hj => ?_⟩
  have hmem : j ∈ first ++ i :: rest := h ▸ List.mem_range.2 (by omega)
  have hpair : (first ++ i :: rest).Pairwise (· < ·) := h ▸ List.pairwise_lt_range
  rcases List.mem_append.1 hmem with hj' | hj'
  · exact hj'
  · have htail := (List.pairwise_append.1 hpair).2.1
    rcases List.mem_cons.1 hj' with rfl | hj'
    · omega
    · have := (List.pairwise_cons.1 htail).1 j hj'
      omega

/-- What reaches the console before the first access that does not complete. -/
theorem printed_congr (ht : ∀ access va, b.target access va = b'.target access va) {s s' : Services} {frame : TrapFrame}
    (hlists : userAccesses s' frame = userAccesses s frame)
    (htouched : ∀ a i, b.Touches (userAccesses s frame) a i →
      s.memory (a.address + BitVec.ofNat 64 i) = s'.memory (a.address + BitVec.ofNat 64 i)) :
    b.printed s frame = b'.printed s' frame := by
  unfold Board.printed
  rw [hlists]
  cases hcall : syscallOf frame.sysNo with
  | none => rfl
  | some call =>
    cases call with
    | write =>
      cases haccesses : userAccesses s frame with
      | nil => rfl
      | cons a rest =>
        dsimp only
        rw [← funext (reaches_congr ht a)]
        refine map_takeWhile_congr fun first i rest' hrange hfirst hi => htouched a i ?_
        obtain ⟨hlt, hbelow⟩ := range_split hrange
        refine ⟨[], rest, haccesses, fun x hx => absurd hx List.not_mem_nil, hlt, fun j hj => ?_⟩
        rcases Nat.lt_or_eq_of_le hj with hj | rfl
        · exact hfirst j (hbelow j hj)
        · exact hi
    | _ => rfl

/-- A system call of another domain. -/
theorem Board.AgreeOutside.syscall (hL : L.WellPlaced) (h : Board.AgreeOutside L d b b') (hs : b.Sound L before)
    (hs' : b'.Sound L before) (hd : KnownDomain d) (hne : b.domain ≠ d) {frame : TrapFrame} (counter : BitVec 64)
    (device : ByteMemory.Memory 64)
    (hnsec : syscallOf frame.sysNo = some .nanosleep → inSupervisorMemory (frame.arg0 + nsecOffset) = false) :
    Board.AgreeOutside L d (b.syscall L.toArch frame counter device) (b'.syscall L.toArch frame counter device) := by
  have ht := fun access va => h.target hL hs hs' access va
  have hview : ∀ va, inSupervisorMemory va = false → b.view device va = b'.view device va := fun va hva =>
    h.view hL hs hs' hd hne device hva
  -- what is touched looks the same
  have htouched : ∀ a i, b.Touches (userAccesses (b.services counter device) frame) a i →
      b.view device (a.address + BitVec.ofNat 64 i) = b'.view device (a.address + BitVec.ofNat 64 i) := by
    intro a i htouch
    refine hview _ ?_
    rcases htouch.address hL hs with hva | ⟨hcall, rfl⟩
    · exact hva
    · obtain ⟨first, rest, -, -, -, hreach⟩ := htouch
      exact Board.Sound.shielded hL hs (hnsec hcall) i fun j hj => hreach j (by omega)
  by_cases hfault : syscallOf frame.sysNo = some .nanosleep ∧ frame.arg0 ≠ 0 ∧
      b.completes ⟨frame.arg0 + nsecOffset, 8, false⟩ = false
  · -- both boards halt at the first access
    obtain ⟨hcall, hreq, hfalse⟩ := hfault
    have hfalse' : b'.completes ⟨frame.arg0 + nsecOffset, 8, false⟩ = false := completes_congr ht ▸ hfalse
    rw [syscall_halts _ b hcall hreq hfalse, syscall_halts _ b' hcall hreq hfalse']
    exact ⟨by rw [h.machine], h.tlb, h.console, h.fds, h.frequency, h.memory⟩
  · have hlists : userAccesses (b'.services counter device) frame = userAccesses (b.services counter device) frame := by
      refine userAccesses_congr h.fds h.frequency fun hcall hreq => readWord_congr fun i hi => ?_
      have hcompletes : b.completes ⟨frame.arg0 + nsecOffset, 8, false⟩ = true := by
        by_contra hfalse
        exact hfault ⟨hcall, hreq, Bool.eq_false_iff.2 hfalse⟩
      exact hview _ (Board.Sound.shielded hL hs (hnsec hcall) i fun j hj => completes_iff.1 hcompletes j (Nat.lt_trans hj hi))
    have hmemory : ∀ pa, ¬ L.Own d pa →
        ((userAccesses (b.services counter device) frame).takeWhile b.completes).foldl
            (b.writeBack (L.svcSyscall b.machine (b.services counter device) frame).2.memory) b.memory pa =
          ((userAccesses (b'.services counter device) frame).takeWhile b'.completes).foldl
            (b'.writeBack (L.svcSyscall b'.machine (b'.services counter device) frame).2.memory) b'.memory pa := by
      intro pa hpa
      have hfrequency : (b.services counter device).frequency = (b'.services counter device).frequency := h.frequency
      have hcounter : (b.services counter device).counter = (b'.services counter device).counter := rfl
      rw [hlists, ← completes_congr ht]
      refine foldl_congr_at (h.memory pa hpa) fun a ha m m' hm => writeBack_congr ht hm fun hwrite i hi => ?_
      rw [← h.machine]
      exact svcSyscall_written L.toArch b.machine hfrequency hcounter (List.takeWhile_prefix _ |>.subset ha) hwrite hi
    by_cases hall : (userAccesses (b.services counter device) frame).all b.completes = true
    · have hall' : (userAccesses (b'.services counter device) frame).all b'.completes = true := by
        rw [hlists, ← completes_congr ht]
        exact hall
      have hagree : Services.AgreeOn (userAccesses (b.services counter device) frame) (b.services counter device)
          (b'.services counter device) := by
        refine ⟨fun a ha _ i hi => htouched a i ?_, h.console, h.fds, rfl, h.frequency⟩
        obtain ⟨first, rest, hsplit⟩ := List.append_of_mem ha
        have hcompletes := fun x hx => List.all_eq_true.1 hall x hx
        exact ⟨first, rest, hsplit, fun x hx => hcompletes x (hsplit ▸ List.mem_append_left _ hx), hi, fun j hj =>
          completes_iff.1 (hcompletes a ha) j (by omega)⟩
      obtain ⟨hmachine, hconsole⟩ := svcSyscall_congr L.toArch b.machine hagree
      rw [Board.syscall, Board.syscall, if_pos hall, if_pos hall']
      exact ⟨by rw [← h.machine]; exact hmachine, h.tlb, by rw [← h.machine]; exact hconsole, h.fds, h.frequency, hmemory⟩
    · have hall' : ¬ (userAccesses (b'.services counter device) frame).all b'.completes = true := by
        rw [hlists, ← completes_congr ht]
        exact hall
      rw [Board.syscall, Board.syscall, if_neg hall, if_neg hall']
      exact ⟨by rw [h.machine], h.tlb, by rw [h.console, printed_congr ht hlists htouched], h.fds, h.frequency, hmemory⟩

theorem boardOk_congr (h : b.machine = b'.machine) {e : BoardEvent} : BoardOk b e ↔ BoardOk b' e := by
  unfold BoardOk
  rw [h]

/-- The unwinding condition. -/
theorem Board.AgreeOutside.step (hL : L.WellPlaced) (h : Board.AgreeOutside L d b b') (hs : b.Sound L before)
    (hs' : b'.Sound L before) (hd : KnownDomain d) {e : BoardEvent} (hok : Discreet d b e) :
    Board.AgreeOutside L d (boardStep L.toArch b e) (boardStep L.toArch b' e) ∧ seenOutside d b e = seenOutside d b' e := by
  have hasid : activeAsid b.machine.protection = activeAsid b'.machine.protection := by rw [h.machine]
  have hel0 : b.machine.inEl0 = b'.machine.inEl0 := by rw [h.machine]
  cases e with
  | machine e => exact ⟨⟨by simp only [boardStep, h.machine], h.tlb, h.console, h.fds, h.frequency, h.memory⟩, rfl⟩
  | syscall frame counter device =>
    refine ⟨?_, rfl⟩
    simp only [boardStep, ← hel0]
    split
    · exact h.syscall hL hs hs' hd hok.2.1 counter device hok.2.2
    · exact h
  | load va =>
    refine ⟨h, ?_⟩
    simp only [seenOutside, ← hel0, ← h.domain]
    split
    · rename_i hother
      exact h.el0Load hL hs hs' hd hother.2 va
    · rfl
  | store va value =>
    refine ⟨?_, rfl⟩
    simp only [boardStep, ← hel0, ← h.target hL hs hs']
    split
    · split
      · exact h
      · rename_i p _
        refine ⟨h.machine, h.tlb, h.console, h.fds, h.frequency, fun pa hpa => ?_⟩
        dsimp only
        by_cases hp : pa = p
        · rw [hp, Function.update_self, Function.update_self]
        · rw [Function.update_of_ne hp, Function.update_of_ne hp, h.memory pa hpa]
    · exact h
  | tlbFill va =>
    refine ⟨⟨h.machine, ?_, h.console, h.fds, h.frequency, h.memory⟩, rfl⟩
    simp only [boardStep, TranslationCache.fill, Board.Sound.walk hL hs, Board.Sound.walk hL hs', h.domain, h.tlb, hasid]
  | tlbEvict n => exact ⟨⟨h.machine, by simp only [boardStep, h.tlb], h.console, h.fds, h.frequency, h.memory⟩, rfl⟩
  | invalidateAsid asid => exact ⟨⟨h.machine, by simp only [boardStep, h.tlb], h.console, h.fds, h.frequency, h.memory⟩, rfl⟩
  | invalidateDomain domain =>
    refine ⟨?_, rfl⟩
    simp only [boardStep]
    split
    · exact h
    · exact ⟨h.machine, by rw [h.tlb], h.console, h.fds, h.frequency, h.memory⟩
  | invalidateAll => exact ⟨⟨h.machine, rfl, h.console, h.fds, h.frequency, h.memory⟩, rfl⟩

/-- What differs at the end of some events was stored to while its domain ran. -/
theorem Board.Sound.changed_at_home (hL : L.WellPlaced) (hs : b.Sound L before) {es : List BoardEvent}
    (ha : Admits BoardOk (boardStep L.toArch) b es) (hd : KnownDomain d) {pa : Reg} (hown : L.Own d pa)
    (hne : (endState (boardStep L.toArch) b es).memory pa ≠ b.memory pa) :
    ∃ first e rest, es = first ++ e :: rest ∧ e.StoresTo (endState (boardStep L.toArch) b first) pa ∧
      (endState (boardStep L.toArch) b first).machine.inEl0 = true ∧ (endState (boardStep L.toArch) b first).domain = d := by
  obtain ⟨first, e, rest, rfl, hchange⟩ := endState_ne (f := fun b : Board => b.memory pa) hne
  have hfirst : (endState (boardStep L.toArch) b first).Sound L before :=
    ha.first.invariant (I := fun b => b.Sound L before) (fun _ _ hok hs => Board.Sound.step hL hs hok) hs
  obtain ⟨hel0, hstores, hpage⟩ := Board.Sound.changes hL hfirst hchange
  refine ⟨first, e, rest, rfl, hstores, hel0, ?_⟩
  by_contra hother
  obtain ⟨hprivate, hcommon⟩ := own_private hL hd hfirst.machine.domain (Ne.symm hother) hown
  rcases hpage with hpage | hpage
  · exact hprivate hpage
  · exact hcommon (Or.inl hpage)

/-- Two boards that differ in the pages of `d`, with the same events. -/
theorem Board.Sound.invisible (hL : L.WellPlaced) (hs : b.Sound L before) (hd : KnownDomain d)
    {memory : ByteMemory.Memory 64} (hmemory : ∀ pa, ¬ L.Own d pa → b.memory pa = memory pa) {es : List BoardEvent}
    (ha : Admits (Discreet d) (boardStep L.toArch) b es) :
    outputs (boardStep L.toArch) (seenOutside d) b es = outputs (boardStep L.toArch) (seenOutside d) { b with memory } es ∧
      Board.AgreeOutside L d (endState (boardStep L.toArch) b es) (endState (boardStep L.toArch) { b with memory } es) := by
  have hs' : Board.Sound L before { b with memory } := by
    refine ⟨hs.machine, TablesIntact.congr hL hs.tables fun pa ⟨t, ht, hpa⟩ => (hmemory pa fun hown => ?_).symm, hs.tlb⟩
    exact writable_ne_table hL hd (Or.inl hown) ht hpa
  have hstart : Board.AgreeOutside L d b { b with memory } ∧ b.Sound L before ∧ Board.Sound L before { b with memory } :=
    ⟨⟨rfl, rfl, rfl, rfl, rfl, hmemory⟩, hs, hs'⟩
  obtain ⟨⟨hagree, -, -⟩, houtputs⟩ := unwinding (fun b b' => Board.AgreeOutside L d b b' ∧ b.Sound L before ∧ b'.Sound L before)
    (fun b b' e ⟨hagree, hs, hs'⟩ hok => by
      obtain ⟨hnext, hseen⟩ := hagree.step hL hs hs' hd hok
      exact ⟨⟨hnext, Board.Sound.step hL hs hok.1, Board.Sound.step hL hs' ((boardOk_congr hagree.machine).1 hok.1)⟩, hseen⟩)
    hstart ha
  exact ⟨houtputs, hagree⟩

end

/-! ## Over whole runs -/

/-- The consecutive layout on zeroed memory, with the counter of the QEMU board. -/
def exampleBoard : Board := Board.boot consecutiveLayout (fun _ => 0) 62500000

/-- The board after some events. -/
def exampleAfter (es : List BoardEvent) : Board := (traceFrom (boardStep consecutiveLayout.toArch) [] exampleBoard es).2

theorem exampleAfter_run (es : List BoardEvent) (ha : Admits BoardOk (boardStep consecutiveLayout.toArch) exampleBoard es) :
    ∃ h, Run BoardOk (boardStep consecutiveLayout.toArch) (Board.boot consecutiveLayout (fun _ => 0) 62500000) h (exampleAfter es) :=
  ⟨_, Run.start.trace ha⟩

/-- The private page of domain A is mapped there, for EL0 and EL1. -/
theorem exampleAfter_target {b : Board} (hs : b.Sound consecutiveLayout fun _ => 0) (hb : b.domain = domainA) (access : Leaf → Bool)
    (haccess : access (pageLeaf (consecutiveLayout.space domainA) (privateAPa, dataAttributes)).cached = true) :
    b.target access 0x41000010 = some 0x41000010 := by
  have hmapping : consecutiveLayout.mapping (consecutiveLayout.space domainA) ((0x41000010 : Reg).extractLsb' 12 9).toNat =
      some (privateAPa, dataAttributes) := by decide
  have hleaf : consecutiveLayout.leafAt (fun _ => 0) domainA 0x41000010 =
      some (pageLeaf (consecutiveLayout.space domainA) (privateAPa, dataAttributes)).cached := by
    rw [leafAt_eq, if_pos (by decide), translate_page consecutiveLayout_wellPlaced _ (Or.inl rfl) (by decide) (by decide), hmapping]
    rfl
  rw [Board.target, Board.Sound.translate consecutiveLayout_wellPlaced hs, hb, hleaf]
  simp only [haccess, if_true, cached_physicalAddress]
  decide

theorem boardStep_store {arch : Arch} {b : Board} (hel0 : b.machine.inEl0 = true) {va pa : Reg}
    (ht : b.target Leaf.el0Write va = some pa) (value : BitVec 8) :
    (boardStep arch b (.store va value)).memory = Function.update b.memory pa value := by
  simp only [boardStep, hel0, if_true, ht]

/-- Enter EL0 in domain A. -/
def enterA : BoardEvent := .machine (.runEl0Service 0x41050000 domainA 10 callDisplay)

section
variable (L : Layout) (before : Translation.Memory) (frequency : BitVec 64)

/-- **No stale translation**: in every state that a run reaches, the identifier in TTBR0 is that of the current domain, the
ten page tables are as built, and every address is translated, through the TLB or by a walk, as
in the current domain at boot. -/
theorem board_translates_as_booted (hL : L.WellPlaced) {h : List (Board × BoardEvent)} {b : Board}
    (r : Run BoardOk (boardStep L.toArch) (Board.boot L before frequency) h b) :
    KnownDomain b.domain ∧ domainAsid b.domain = some (activeAsid b.machine.protection) ∧ L.TablesIntact before b.memory ∧
      ∀ va, b.translate va = if va.toNat < 0x8000000000 then (L.translate before b.domain va).map Leaf.cached else none := by
  have hs := Board.Sound.run hL r
  exact ⟨hs.machine.domain, (activeAsid_known hs.machine.domain hs.machine.consistent rfl).2.2, hs.tables, fun va =>
    Board.Sound.translate hL hs va⟩

/-- A TLB filled in domain A does not serve domain B. -/
theorem board_translates_as_booted_stale :
    (exampleAfter [enterA, .tlbFill 0x41000010, .machine (.trap .dataAbort callDisplay)]).translate 0x41000010 ≠ none ∧
    (exampleAfter [.tlbFill 0x41000010, .machine (.mmuEnter domainB)]).translate 0x41000010 = none := by
  obtain ⟨hA, rA⟩ := exampleAfter_run [enterA, .tlbFill 0x41000010, .machine (.trap .dataAbort callDisplay)]
    ⟨trivial, trivial, trivial, trivial⟩
  obtain ⟨hB, rB⟩ := exampleAfter_run [.tlbFill 0x41000010, .machine (.mmuEnter domainB)] ⟨trivial, trivial, trivial⟩
  obtain ⟨-, -, -, htranslateA⟩ :=
    board_translates_as_booted consecutiveLayout (fun _ => 0) 62500000 consecutiveLayout_wellPlaced rA
  obtain ⟨-, -, -, htranslateB⟩ :=
    board_translates_as_booted consecutiveLayout (fun _ => 0) 62500000 consecutiveLayout_wellPlaced rB
  have hdomainA : (exampleAfter [enterA, .tlbFill 0x41000010, .machine (.trap .dataAbort callDisplay)]).domain = domainA := by decide
  have hdomainB : (exampleAfter [.tlbFill 0x41000010, .machine (.mmuEnter domainB)]).domain = domainB := by decide
  have hmappingA : consecutiveLayout.mapping (consecutiveLayout.space domainA) ((0x41000010 : Reg).extractLsb' 12 9).toNat =
      some (privateAPa, dataAttributes) := by decide
  have hmappingB : consecutiveLayout.mapping (consecutiveLayout.space domainB) ((0x41000010 : Reg).extractLsb' 12 9).toNat =
      none := by decide
  rw [htranslateA, htranslateB, hdomainA, hdomainB, if_pos (by decide), if_pos (by decide),
    translate_page consecutiveLayout_wellPlaced _ (Or.inl rfl) (by decide) (by decide), hmappingA,
    translate_page consecutiveLayout_wellPlaced _ (Or.inr (Or.inl rfl)) (by decide) (by decide), hmappingB]
  exact ⟨Option.some_ne_none _, rfl⟩

/-- **Integrity**: between any two states of a run, a byte of the private page or the stack of domain `d` differs only if a
store to it was made in between while `d` ran, by its own code or by the kernel for it. -/
theorem own_pages_change_at_home (hL : L.WellPlaced) {h : List (Board × BoardEvent)} {b : Board}
    (r : Run BoardOk (boardStep L.toArch) (Board.boot L before frequency) h b) {es : List BoardEvent}
    (ha : Admits BoardOk (boardStep L.toArch) b es) {d : DomainId} (hd : KnownDomain d) {pa : Reg} (hown : L.Own d pa)
    (hne : (endState (boardStep L.toArch) b es).memory pa ≠ b.memory pa) :
    ∃ first e rest, es = first ++ e :: rest ∧ e.StoresTo (endState (boardStep L.toArch) b first) pa ∧
      (endState (boardStep L.toArch) b first).machine.inEl0 = true ∧ (endState (boardStep L.toArch) b first).domain = d := by
  exact (Board.Sound.run hL r).changed_at_home hL ha hd hown hne

/-- Domain A changes its private page by one store. -/
theorem own_pages_change_at_home_store :
    ∃ first e rest, [BoardEvent.store 0x41000010 ((exampleAfter [enterA]).memory 0x41000010 + 1)] = first ++ e :: rest ∧
      e.StoresTo (endState (boardStep consecutiveLayout.toArch) (exampleAfter [enterA]) first) 0x41000010 ∧
      (endState (boardStep consecutiveLayout.toArch) (exampleAfter [enterA]) first).machine.inEl0 = true ∧
      (endState (boardStep consecutiveLayout.toArch) (exampleAfter [enterA]) first).domain = domainA := by
  obtain ⟨h, r⟩ := exampleAfter_run [enterA] ⟨trivial, trivial⟩
  have hown : consecutiveLayout.Own domainA 0x41000010 := by decide
  have hel0 : (exampleAfter [enterA]).machine.inEl0 = true := by decide
  have hdomain : (exampleAfter [enterA]).domain = domainA := by decide
  have htarget := exampleAfter_target (Board.Sound.run consecutiveLayout_wellPlaced r) hdomain Leaf.el0Write (by decide)
  have hplus : ∀ x : BitVec 8, x + 1 ≠ x := by decide
  generalize exampleAfter [enterA] = b at r hel0 hdomain htarget ⊢
  have ha : Admits BoardOk (boardStep consecutiveLayout.toArch) b [.store 0x41000010 (b.memory 0x41000010 + 1)] := ⟨trivial, trivial⟩
  refine own_pages_change_at_home consecutiveLayout (fun _ => 0) 62500000 consecutiveLayout_wellPlaced r ha (Or.inl rfl) hown ?_
  rw [endState, endState, boardStep_store hel0 htarget, Function.update_self]
  exact hplus _

/-- **Confidentiality**: change the private page and the stack of domain `d` in any state of a run, and let the same events
follow. The other domains load the same bytes, the machine and the console come out the same, and memory
differs in those pages only. -/
theorem own_pages_invisible (hL : L.WellPlaced) {h : List (Board × BoardEvent)} {b : Board}
    (r : Run BoardOk (boardStep L.toArch) (Board.boot L before frequency) h b) {d : DomainId} (hd : KnownDomain d)
    {memory : ByteMemory.Memory 64} (hmemory : ∀ pa, ¬ L.Own d pa → b.memory pa = memory pa) {es : List BoardEvent}
    (ha : Admits (Discreet d) (boardStep L.toArch) b es) :
    outputs (boardStep L.toArch) (seenOutside d) b es = outputs (boardStep L.toArch) (seenOutside d) { b with memory } es ∧
      Board.AgreeOutside L d (endState (boardStep L.toArch) b es) (endState (boardStep L.toArch) { b with memory } es) := by
  exact (Board.Sound.run hL r).invisible hL hd hmemory ha

/-- The first byte of the stack of domain B, seen by nobody while domain A runs. -/
theorem own_pages_invisible_stack :
    outputs (boardStep consecutiveLayout.toArch) (seenOutside domainB) (exampleAfter [enterA]) [.load 0x411c0000, .load 0x41000010] =
      outputs (boardStep consecutiveLayout.toArch) (seenOutside domainB)
        { exampleAfter [enterA] with memory := Function.update (exampleAfter [enterA]).memory 0x4010d000 7 }
        [.load 0x411c0000, .load 0x41000010] := by
  obtain ⟨h, r⟩ := exampleAfter_run [enterA] ⟨trivial, trivial⟩
  have hB : KnownDomain domainB := Or.inr (Or.inl rfl)
  have ha : Admits (Discreet domainB) (boardStep consecutiveLayout.toArch) (exampleAfter [enterA])
      [.load 0x411c0000, .load 0x41000010] := ⟨⟨trivial, trivial⟩, ⟨trivial, trivial⟩, trivial⟩
  refine (own_pages_invisible consecutiveLayout (fun _ => 0) 62500000 consecutiveLayout_wellPlaced r hB (fun pa hpa => ?_) ha).1
  have hne : pa ≠ 0x4010d000 := by
    rintro rfl
    exact hpa (by decide)
  rw [Function.update_of_ne hne]

end

end Lettuce
