import Akaris.Interrupt.Tables
import Akaris.Virtmem.Defs

/-!
# What an exception saves, and what the return to user space restores

All results start from a run of `i686_cpu_init`, whose tables are then in use: `Initialised`.

**Entry.**  `interrupt_served_iff` says which interrupts reach `i686_int_entry`: those of the 21
vectors that have a stub, but not the ones that a user program raises by an instruction, because the
gates are closed to its level.  `interrupt_saves_context`: whatever a program was doing when such an
exception arrived, `i686_int_entry` is called with a pointer to a context that holds all of its
registers, the vector and the error code, and nothing outside of the frame was written.

**Return.**  `userspace_return_iff` says exactly which contexts `i686_userspace_return` can resume
and what it leaves; user mode never gets to hold a segment of the kernel.

**Round trip.**  `interrupt_round_trip`: from the pointer that the handler got, the return resumes
the program as it was interrupted.  `new_thread_enters_user_mode` does the same for the context that
`i686_thread_alloc` makes up.
-/

namespace Akaris

open Ia32 Ia32.Memory

attribute [local irreducible] Prog.wp kernelGdt idtEntries

/-! ## Privilege levels -/

/-- The code segment of a privilege level. -/
def codeOf (level : ℕ) : BitVec 16 := if level = 0 then 0x08 else 0x1B

/-- The stack segment of a privilege level. -/
def stackOf (level : ℕ) : BitVec 16 := if level = 0 then 0x10 else 0x23

/-- What `i686_cpu_init` leaves: the tables and the stack of level 0. -/
structure TablesLoaded (S : Symbols) (tss stack : BitVec 32) (s : Processor) : Prop where
  gdt : s.gdt = kernelGdt tss
  idt : s.idt = idtEntries S
  ss0 : s.ss0 = 0x10
  esp0 : s.esp0 = stack + 4096 - 4

/-- Code of the kernel, or of a user program, is running. -/
structure Level (level : ℕ) (s : Processor) : Prop where
  zero_or_three : level = 0 ∨ level = 3
  cs : s.cs = codeOf level
  ss : s.ss = stackOf level
  seg : ∀ r, DataSelector level (s.seg r)
  vm : Flag.vm.get s.eflags = 0

section

variable {p : BitVec 16 → BitVec 16} {S : Symbols} {tss stack : BitVec 32}
variable {s t k : Processor} {e : Event} {level : ℕ} {c : BitVec 32} {ctx : I686Context}
variable {Q : Unit → Processor → Prop} {E : Fault → Prop}
variable {m₀ m : Memory} {top sp : BitVec 32} {ws : List (BitVec 32)}

lemma Level.cpl (h : Level level s) : s.cpl = level := by
  rw [Processor.cpl, h.cs]
  rcases h.zero_or_three with rfl | rfl <;> decide

/-! ## The set-up of the processor -/

/-- The kernel's data segment can be loaded. -/
lemma movData_wp {r : Seg} {is : List Instr} (hgdt : s.gdt = kernelGdt tss) (hcpl : s.cpl = 0)
    (hax : lowHalf (s.reg .eax) = 0x10)
    (hq : Prog.wp (execAll p is) Q E
      (Processor.withStack { s with seg := Function.update s.seg r 0x10 } sp m)) :
    Prog.wp (execAll p (.movSeg r .eax :: is)) Q E (s.withStack sp m) := by
  have hdata : dataFault (kernelGdt tss) 0 0x10 = none :=
    (dataFault_iff tss (by decide)).mpr (by decide)
  refine wp_cons (wp_movSeg (by decide) ?_ ?_)
  · rw [hax, hgdt, hcpl]
    exact hdata
  · rw [hax]
    exact hq

/-- The kernel's data segment goes to all four data segment registers. -/
lemma loadData_wp {is : List Instr} (hgdt : s.gdt = kernelGdt tss) (hcpl : s.cpl = 0)
    (hq : ∀ x, lowHalf x = 0x10 → Prog.wp (execAll p is) Q E
      (Processor.withStack { s.setReg .eax x with seg := fun _ => 0x10 } sp m)) :
    Prog.wp (execAll p (.movImm16 .eax 0x10 :: .movSeg .ds .eax :: .movSeg .es .eax ::
      .movSeg .fs .eax :: .movSeg .gs .eax :: is)) Q E (s.withStack sp m) := by
  have hlow : lowHalf (highHalf (s.reg .eax) ++ (0x10 : BitVec 16)) = 0x10 :=
    BitVec.setWidth_append_eq_right
  have hax : lowHalf ((s.setReg .eax (highHalf (s.reg .eax) ++ (0x10 : BitVec 16))).reg .eax)
      = 0x10 := by
    show lowHalf (Function.update s.reg .eax (highHalf (s.reg .eax) ++ (0x10 : BitVec 16)) .eax) = _
    rw [Function.update_self]
    exact hlow
  refine wp_cons (wp_movImm16 (r := .eax) (by decide) ?_)
  refine movData_wp hgdt hcpl hax ?_
  refine movData_wp hgdt hcpl hax ?_
  refine movData_wp hgdt hcpl hax ?_
  refine movData_wp hgdt hcpl hax ?_
  have hstate := hq _ hlow
  have hseg : (fun _ : Seg => (0x10 : BitVec 16)) = Function.update (Function.update
      (Function.update (Function.update s.seg .ds 0x10) .es 0x10) .fs 0x10) .gs 0x10 := by
    funext r
    cases r <;> rfl
  rw [hseg] at hstate
  exact hstate

/-- The segment registers after the table has been loaded. -/
lemma loadSegments_wp (hgdt : s.gdt = kernelGdt tss) (hcpl : s.cpl = 0)
    (hq : ∀ x, Q () (Processor.withStack
      { s.setReg .eax x with cs := 0x08, ss := 0x10, seg := fun _ => 0x10 } sp m)) :
    Prog.wp (execAll p [.ljmp 0x08, .movImm16 .eax 0x10, .movSeg .ds .eax, .movSeg .es .eax,
      .movSeg .fs .eax, .movSeg .gs .eax, .movSs .eax]) Q E (s.withStack sp m) := by
  have hcs : Selector.rpl.set 0x08 s.cpl = 0x08 := by
    rw [hcpl]
    decide
  have hcpl' : Selector.rpl.get 0x08 = 0 := by decide
  refine wp_cons (wp_ljmp ?_ ?_)
  · rw [hgdt, hcpl, kernelGdt_eq]
    rfl
  rw [hcs]
  refine loadData_wp hgdt hcpl' fun x hx => ?_
  have hax : lowHalf (Function.update s.reg .eax x .eax) = 0x10 := by
    rw [Function.update_self]
    exact hx
  refine wp_cons (wp_movSs (by decide) ?_ ?_)
  · show stackFault s.gdt .generalProtection (Selector.rpl.get 0x08) (lowHalf _) = none
    rw [hgdt, hcpl']
    exact (congrArg (stackFault (kernelGdt tss) .generalProtection 0) hax).trans
      (stackFault_kernel tss)
  · rw [execAll, Prog.wp_pure]
    have hstate := hq x
    simpa only [Processor.setReg, hax] using hstate

/-- What is left to do for `i686_cpu_init` after the descriptors are loaded. -/
lemma setupIdt_wp (hgdt : t.gdt = kernelGdt tss) (hcs : t.cs = 0x08) (hss : t.ss = 0x10)
    (hseg : ∀ r, t.seg r = 0x10) (hvm : Flag.vm.get t.eflags = 0) (hmem : t.mem = s.mem) :
    Prog.wp (do i686SetupIdt S; i686CpuSetTssStack stack 4096)
      (fun _ u => TablesLoaded S tss stack u ∧ Level 0 u ∧ u.mem = s.mem)
      (fun _ => stack.toNat % 4 ≠ 0) t := by
  rw [i686SetupIdt, Prog.wp_bind, Prog.wp_update, idt_withinLimit, i686CpuSetTssStack, Prog.wp_bind,
    Prog.wp_assert, Prog.wp_bind, Prog.wp_assert, Prog.wp_update]
  have htab : TablesLoaded S tss stack
      { t with idt := idtEntries S, ss0 := 0x10, esp0 := stack + BitVec.ofNat 32 4096 - 4 } :=
    ⟨hgdt, rfl, rfl, rfl⟩
  refine ⟨fun _ => ⟨fun _ => ⟨htab, ⟨Or.inl rfl, hcs, hss, fun r => ?_, hvm⟩, hmem⟩,
    fun h => absurd (by decide) h⟩, id⟩
  show DataSelector 0 (t.seg r)
  rw [hseg r]
  decide

/-- **`i686_cpu_init` sets up the tables and the stack**; the stack must be aligned. -/
lemma i686CpuInit_wp (hcpl : s.cpl = 0) (hvm : Flag.vm.get s.eflags = 0) :
    Prog.wp (i686CpuInit p S tss stack)
      (fun _ t => TablesLoaded S tss stack t ∧ Level 0 t ∧ t.mem = s.mem)
      (fun _ => stack.toNat % 4 ≠ 0) s := by
  rw [i686CpuInit, Prog.wp_bind, i686SetupGdt, i686CpuSetGdt]
  simp only [Prog.wp_bind, Prog.wp_update]
  rw [gdt_withinLimit, ← withStack_self (s := { s with gdt := kernelGdt tss })]
  refine loadSegments_wp rfl hcpl fun x => ?_
  exact setupIdt_wp rfl rfl rfl (fun _ => rfl) hvm rfl

/-- `i686_cpu_init` has run, on a processor at level 0, and the tables and the stack of level 0 are
what it left. -/
structure Initialised (p : BitVec 16 → BitVec 16) (S : Symbols) (tss stack : BitVec 32)
    (s : Processor) : Prop where
  init : ∃ s₀ t, s₀.cpl = 0 ∧ Flag.vm.get s₀.eflags = 0 ∧
    (i686CpuInit p S tss stack).run s₀ = .ok ((), t) ∧
    s.gdt = t.gdt ∧ s.idt = t.idt ∧ s.ss0 = t.ss0 ∧ s.esp0 = t.esp0

lemma Initialised.tables (h : Initialised p S tss stack s) : TablesLoaded S tss stack s := by
  rcases h.init with ⟨s₀, t, hcpl, hvm, hrun, hgdt, hidt, hss0, hesp0⟩
  have htab := (Prog.wp_run (i686CpuInit_wp hcpl hvm) hrun).1
  exact ⟨hgdt.trans htab.gdt, hidt.trans htab.idt, hss0.trans htab.ss0, hesp0.trans htab.esp0⟩

/-! ## Entry -/

/-- The words that the interrupted stack pointer and stack segment end up in: of a user program they
were saved, of the kernel they are what is on its stack. -/
structure Above (s : Processor) (level : ℕ) (useresp ss : BitVec 32) : Prop where
  user : level = 3 → useresp = s.reg .esp ∧ lowHalf ss = s.ss
  kernel : level = 0 → useresp = s.mem.read (s.reg .esp) ∧ ss = s.mem.read (s.reg .esp + 4)

/-- The end of the context. -/
def contextEnd (s : Processor) (level : ℕ) : BitVec 32 :=
  if level = 0 then s.reg .esp + 8 else s.esp0

/-- The state in which the stub starts, apart from its stack. -/
def inHandler (S : Symbols) (e : Event) (s : Processor) : Processor :=
  { s with
    cs := 0x08
    ss := 0x10
    eip := S.intHandler e.vector
    eflags := handlerFlags s.eflags }

/-- The interrupts that the kernel serves. -/
def Served (level : ℕ) (e : Event) : Prop := e.vector < 21 ∧ (e.software = true → level = 0)

instance (level : ℕ) (e : Event) : Decidable (Served level e) := inferInstanceAs (Decidable (_ ∧ _))

/-- The gates can be used by the processor, and by instructions of the kernel. -/
lemma gateUseFault_stub (entry : BitVec 32) (h : e.software = true → level = 0) :
    gateUseFault level e (i686SetIdtEntry entry) = none := by
  have hdpl : ¬(e.software = true ∧ 0 < level) := by
    rintro ⟨hsw, hpos⟩
    have := h hsw
    omega
  rw [gateUseFault, gate_type, gate_dpl, gate_present, if_neg (by decide), if_neg (by decide),
    if_neg hdpl, if_neg (by decide)]

/-- Instructions of a user program cannot use them. -/
lemma gateUseFault_user (entry : BitVec 32) (hsw : e.software = true) (hlevel : 0 < level) :
    gateUseFault level e (i686SetIdtEntry entry) = some .generalProtection := by
  rw [gateUseFault, gate_type, gate_dpl, if_neg (by decide), if_neg (by decide),
    if_pos ⟨hsw, hlevel⟩]

/-- The stack that the state is saved on. -/
lemma enterLevel_wp (htab : TablesLoaded S tss stack s) (hl : Level level s)
    (hq : ∀ x v e' m', Above s level x v → Pushed s.mem (contextEnd s level) [x, v] e' m' →
      Q () (Processor.withStack { s with ss := 0x10 } e' m')) :
    Prog.wp (enterLevel p s 0) Q E s := by
  rw [enterLevel, hl.cpl]
  rcases hl.zero_or_three with rfl | rfl
  · have hss : { s with ss := 0x10 } = s := by
      have := hl.ss
      rw [stackOf, if_pos rfl] at this
      rw [← this]
    have h : Pushed s.mem (contextEnd s 0) [s.mem.read (s.reg .esp), s.mem.read (s.reg .esp + 4)]
        (s.reg .esp) s.mem := by
      refine ⟨by simp, ?_, ⟨rfl, rfl, trivial⟩, fun _ _ => rfl⟩
      rw [contextEnd, if_pos rfl]
      exact (add_sub_cancel_right _ _).symm
    have := hq _ _ _ _ ⟨fun h => absurd h (by decide), fun _ => ⟨rfl, rfl⟩⟩ h
    rw [hss, withStack_self] at this
    rw [if_neg (lt_irrefl 0), Prog.wp_pure]
    exact this
  · rw [if_pos (by decide)]
    refine wp_switchStack ?_ fun u e' m' hu h => ?_
    · rw [htab.gdt, htab.ss0]
      exact stackFault_kernel tss
    · have hss : ({ s with ss := s.ss0 } : Processor) = { s with ss := 0x10 } := by rw [htab.ss0]
      rw [hss]
      refine hq _ u e' m' ⟨fun _ => ⟨rfl, hu⟩, fun h => absurd h (by decide)⟩ ?_
      rw [contextEnd, if_neg (by decide)]
      exact h

/-- The delivery of an exception. -/
lemma deliver_wp (htab : TablesLoaded S tss stack s) (hl : Level level s) (he : Served level e)
    (hq : ∀ x v u e' m', Above s level x v → lowHalf u = s.cs →
      Pushed s.mem (contextEnd s level)
        (e.error.toList.reverse ++ [s.eip, u, savedFlags e s, x, v]) e' m' →
      Q () ((inHandler S e s).withStack e' m')) :
    Prog.wp (deliver p e) Q E s := by
  have htarget : BitVec.ofNat 16 (Gate.selector.get (i686SetIdtEntry (S.intHandler e.vector)))
      = 0x08 := by
    rw [gate_selector]
    rfl
  rw [deliver, Prog.wp_bind, Prog.wp_gets, id_eq, Prog.wp_bind]
  refine wp_check (if_neg (by rw [hl.vm]; decide)) ?_
  rw [htab.idt, idtEntries_lookup S he.1]
  show Prog.wp (enterGate p e s (i686SetIdtEntry (S.intHandler e.vector))) Q E s
  rw [enterGate, htarget, htab.gdt, gateLevel_kernel, Prog.wp_bind, hl.cpl]
  refine wp_check (gateUseFault_stub _ he.2) ?_
  rw [Prog.wp_bind]
  refine wp_check (gateFault_kernel tss) ?_
  rw [Prog.wp_bind]
  refine wp_check (if_neg (by simp)) ?_
  rw [Prog.wp_bind]
  refine enterLevel_wp htab hl fun x v _ _ habove h => ?_
  rw [Prog.wp_bind]
  refine wp_saveState h (by simp) fun u e' m' hu h => ?_
  rw [Prog.wp_update, gate_offset]
  exact hq x v u e' m' habove hu h

/-- The instructions of a stub. -/
def stubOf (n : ℕ) : List Instr :=
  if pushesError n then i686IntHandlerWerr n else i686IntHandlerNoerr n

/-- **A stub pushes a zero exactly where the processor pushes no error code.** -/
lemma intStubs_get {n : ℕ} (hn : n < 21) : intStubs[n]? = some (stubOf n) := by
  interval_cases n <;> rfl

/-- A gate leads to the stub of its vector. -/
lemma stubAt_intHandler (S : Symbols) {n : ℕ} (hn : n < 21) :
    S.stubAt (S.intHandler n) = some (stubOf n) := by
  have hfind : ((List.range 21).find? fun i => S.intHandler i = S.intHandler n) = some n := by
    rw [List.find?_range_eq_some]
    refine ⟨by simp, List.mem_range.mpr hn, fun i hi => ?_⟩
    have hne : S.intHandler i ≠ S.intHandler n := fun heq =>
      absurd (S.distinct i (by omega) n hn heq) (by omega)
    simp [hne]
  rw [Symbols.stubAt, hfind, Option.bind_some, intStubs_get hn]

/-- `i686_int_handler`: the registers are pushed, and the pointer to them is the argument. -/
lemma intHandler_wp {ret : BitVec 32} (hgdt : s.gdt = kernelGdt tss) (hcpl : s.cpl = 0)
    (h : Pushed m₀ top ws sp m) (hfit : 4 * (ws.length + 14) ≤ 2 ^ 32)
    (hq : ∀ gs fs es ds c e' m', lowHalf gs = s.seg .gs → lowHalf fs = s.seg .fs →
      lowHalf es = s.seg .es → lowHalf ds = s.seg .ds →
      c = top - BitVec.ofNat 32 (4 * (ws.length + 12)) →
      Pushed m₀ top (ret :: c :: gs :: fs :: es :: ds :: s.reg .edi :: s.reg .esi :: s.reg .ebp ::
        sp :: s.reg .ebx :: s.reg .edx :: s.reg .ecx :: s.reg .eax :: ws) e' m' →
      Q () (Processor.withStack
        { s with reg := Function.update s.reg .eax c, seg := fun _ => 0x10 } e' m')) :
    Prog.wp (execAll p (i686IntHandler ret)) Q E (s.withStack sp m) := by
  refine wp_cons (wp_pusha h (by omega) fun _ _ h => ?_)
  refine wp_cons (wp_pushSeg h (by simp only [List.length_cons]; omega) fun ds _ _ hds h => ?_)
  refine wp_cons (wp_pushSeg h (by simp only [List.length_cons]; omega) fun es _ _ hes h => ?_)
  refine wp_cons (wp_pushSeg h (by simp only [List.length_cons]; omega) fun fs _ _ hfs h => ?_)
  refine wp_cons (wp_pushSeg h (by simp only [List.length_cons]; omega) fun gs c _ hgs h => ?_)
  have hc := h.esp
  refine loadData_wp hgdt hcpl fun x _ => ?_
  refine wp_cons (wp_mov (by decide) ?_)
  rw [withStack_esp]
  refine wp_cons (wp_pushReg h (by simp only [List.length_cons]; omega) fun _ _ h => ?_)
  simp only [withStack_reg (show Reg.eax ≠ Reg.esp by decide), Processor.setReg,
    Function.update_self] at h
  refine wp_cons (wp_push h (by simp only [List.length_cons]; omega) fun e' m' h => ?_)
  rw [execAll, Prog.wp_pure]
  have hstate := hq gs fs es ds c e' m' hgs hfs hes hds hc h
  simpa only [Processor.setReg, Function.update_idem] using hstate

/-- The registers of the interrupted program, in the context. -/
structure Saves (s : Processor) (e : Event) (level : ℕ) (ctx : I686Context) : Prop where
  gs : lowHalf ctx.gs = s.seg .gs
  fs : lowHalf ctx.fs = s.seg .fs
  es : lowHalf ctx.es = s.seg .es
  ds : lowHalf ctx.ds = s.seg .ds
  edi : ctx.edi = s.reg .edi
  esi : ctx.esi = s.reg .esi
  ebp : ctx.ebp = s.reg .ebp
  ebx : ctx.ebx = s.reg .ebx
  edx : ctx.edx = s.reg .edx
  ecx : ctx.ecx = s.reg .ecx
  eax : ctx.eax = s.reg .eax
  intNo : ctx.intNo = BitVec.ofNat 32 e.vector
  errCode : ctx.errCode = e.error.getD 0
  eip : ctx.eip = s.eip
  cs : lowHalf ctx.cs = s.cs
  eflags : ctx.eflags = savedFlags e s
  above : Above s level ctx.useresp ctx.ss

/-- A stub leaves at most two more words, whether they are what `i686_int_handler` expects or not. -/
lemma stub_pushes {n : ℕ} {is : List Instr} (h : Pushed m₀ top ws sp m)
    (hfit : 4 * (ws.length + 2) ≤ 2 ^ 32)
    (hq : ∀ vs e' m', vs.length ≤ 2 → Pushed m₀ top (vs ++ ws) e' m' →
      Prog.wp (execAll p is) Q E (s.withStack e' m')) :
    Prog.wp (execAll p (stubOf n ++ is)) Q E (s.withStack sp m) := by
  rw [stubOf]
  split_ifs
  · exact wp_cons (wp_push h (by omega) fun _ _ h => hq [_] _ _ (by simp) h)
  · refine wp_cons (wp_push h (by omega) fun _ _ h => ?_)
    refine wp_cons (wp_push h (by rw [List.length_cons]; omega) fun _ _ h => ?_)
    exact hq [_, _] _ _ (by simp) h

/-- Whatever is served gets to `i686_int_entry`. -/
lemma served_wp (htab : TablesLoaded S tss stack s) (hl : Level level s) (he : Served level e) :
    Prog.wp (interruptEntry p S e) (fun _ _ => True) (fun _ => False) s := by
  have hcpl : Selector.rpl.get 0x08 = 0 := by decide
  have hlen : e.error.toList.length ≤ 1 := by
    cases e.error <;> simp
  rw [interruptEntry, Prog.wp_bind]
  refine deliver_wp htab hl he fun x v u sp m habove hu h => ?_
  rw [Prog.wp_bind, Prog.wp_gets]
  show Prog.wp (runStub p S (S.intHandler e.vector)) _ _ _
  rw [runStub, stubAt_intHandler S he.1]
  refine stub_pushes h ?_ fun vs e' m' hvs h => ?_
  · simp only [List.length_append, List.length_reverse, List.length_cons, List.length_nil]
    omega
  · refine intHandler_wp htab.gdt hcpl h ?_ fun _ _ _ _ _ _ _ _ _ _ _ _ _ => trivial
    simp only [List.length_append, List.length_reverse, List.length_cons, List.length_nil]
    omega

/-- An interrupt that is not served. -/
lemma unserved_wp (htab : TablesLoaded S tss stack s) (hl : Level level s) (he : ¬Served level e) :
    Prog.wp (interruptEntry p S e) (fun _ _ => False) (fun f => f = .generalProtection) s := by
  rw [interruptEntry, Prog.wp_bind, deliver, Prog.wp_bind, Prog.wp_gets, id_eq, Prog.wp_bind]
  refine wp_check (if_neg (by rw [hl.vm]; decide)) ?_
  rw [htab.idt]
  rcases Nat.lt_or_ge e.vector 21 with h21 | h21
  · -- an instruction of a user program
    have hsw : e.software = true ∧ level ≠ 0 := by
      by_contra hnot
      exact he ⟨h21, fun hsw => by_contra fun hlevel => hnot ⟨hsw, hlevel⟩⟩
    rw [idtEntries_lookup S h21]
    show Prog.wp (enterGate p e s (i686SetIdtEntry (S.intHandler e.vector))) _ _ s
    rw [enterGate, hl.cpl, gateUseFault_user _ hsw.1 (Nat.pos_of_ne_zero hsw.2), Prog.wp_bind, check,
      Prog.wp_fault]
  rcases Nat.lt_or_ge e.vector 256 with h256 | h256
  · rw [idtEntries_rest S h21 h256]
    show Prog.wp (enterGate p e s 0) _ _ s
    have hkind : gateUseFault s.cpl e 0 = some .generalProtection := by
      rw [gateUseFault, if_neg (by decide), if_pos (by decide)]
    rw [enterGate, hkind, Prog.wp_bind, check, Prog.wp_fault]
  · rw [List.getElem?_eq_none (by rw [idtEntries_length]; exact h256)]
    show Prog.wp (Prog.fault Fault.generalProtection) _ _ s
    rw [Prog.wp_fault]

lemma unserved_run (htab : TablesLoaded S tss stack s) (hl : Level level s) (he : ¬Served level e) :
    (interruptEntry p S e).run s = .error .generalProtection := by
  have hwp := unserved_wp (p := p) htab hl he
  cases hrun : (interruptEntry p S e).run s with
  | error f => rw [Prog.wp_stop hwp hrun]
  | ok r => exact (Prog.wp_run hwp hrun).elim

lemma served_of_run (htab : TablesLoaded S tss stack s) (hl : Level level s)
    (hrun : (interruptEntry p S e).run s = .ok ((), t)) : Served level e := by
  by_contra he
  rw [unserved_run htab hl he] at hrun
  exact absurd hrun (by simp)

/-- **Which interrupts are served.**  In the kernel and in user programs, an exception, an external
interrupt or an interrupt instruction reaches `i686_int_entry` if and only if its vector is one of
the 21 that have a stub, and it is not raised by an instruction of a user program; any other ends in
a general protection fault. -/
theorem interrupt_served_iff (hinit : Initialised p S tss stack s) (hl : Level level s) :
    ((∃ t, (interruptEntry p S e).run s = .ok ((), t)) ↔ Served level e) ∧
      (¬Served level e → (interruptEntry p S e).run s = .error .generalProtection) := by
  refine ⟨⟨fun ⟨t, hrun⟩ => served_of_run hinit.tables hl hrun, fun he => ?_⟩,
    unserved_run hinit.tables hl⟩
  rcases Prog.wp_returns (served_wp (p := p) hinit.tables hl he) with ⟨_, t, hrun, -⟩
  exact ⟨t, hrun⟩

/-! ## Return -/

/-- The selectors of the data segment registers in a context. -/
def I686Context.seg (ctx : I686Context) : Seg → BitVec 16
  | .es => lowHalf ctx.es
  | .ds => lowHalf ctx.ds
  | .fs => lowHalf ctx.fs
  | .gs => lowHalf ctx.gs

/-- The kernel calls `i686_userspace_return` with a pointer to a context. -/
structure CallsReturn (tss c : BitVec 32) (ctx : I686Context) (s : Processor) : Prop where
  gdt : s.gdt = kernelGdt tss
  cs : s.cs = 0x08
  nt : Flag.nt.get s.eflags = 0
  arg : s.mem.read (s.reg .esp + 4) = c
  context : HoldsAt s.mem c ctx.words

/-- A context that can be resumed: its segments can be loaded. -/
structure Resumable (ctx : I686Context) : Prop where
  seg : ∀ r, DataSelector 0 (ctx.seg r)
  target : lowHalf ctx.cs = 0x08 ∨ lowHalf ctx.cs = 0x1B ∧ lowHalf ctx.ss = 0x23

/-- What is resumed. -/
structure Resumed (c : BitVec 32) (ctx : I686Context) (s t : Processor) : Prop where
  reg : ∀ r, r ≠ .esp →
    t.reg r = loadedRegs ctx.edi ctx.esi ctx.ebp ctx.ebx ctx.edx ctx.ecx ctx.eax r
  eip : t.eip = ctx.eip
  cs : t.cs = lowHalf ctx.cs
  eflags : t.eflags = Flag.load ctx.eflags
  mem : t.mem = s.mem
  user : lowHalf ctx.cs = 0x1B → t.reg .esp = ctx.useresp ∧ t.ss = lowHalf ctx.ss ∧
    ∀ r, t.seg r = if DataSelector 3 (ctx.seg r) then ctx.seg r else 0
  kernel : lowHalf ctx.cs = 0x08 → t.reg .esp = c + 68 ∧ t.ss = s.ss ∧ ∀ r, t.seg r = ctx.seg r

lemma nt_add (a b x : BitVec 32) : Flag.nt.get (Flag.add a b x) = Flag.nt.get x := by
  simp (disch := decide) only [Flag.add, Field.get_set_of_disjoint]

/-- The end of `i686_userspace_return`, when all registers have been loaded from the context. -/
lemma resume_wp (hgdt : t.gdt = kernelGdt tss) (hcpl : t.cpl = 0) (hnt : Flag.nt.get t.eflags = 0)
    (hvm : Flag.vm.get ctx.eflags = 0) (hss : t.ss = s.ss) (hseg : t.seg = ctx.seg)
    (hdata : ∀ r, DataSelector 0 (ctx.seg r))
    (hreg : t.reg = loadedRegs ctx.edi ctx.esi ctx.ebp ctx.ebx ctx.edx ctx.ecx ctx.eax)
    (h : HoldsAt s.mem (c + 56) [ctx.eip, ctx.cs, ctx.eflags, ctx.useresp, ctx.ss]) :
    Prog.wp iret (fun _ u => Resumable ctx ∧ Resumed c ctx s u) (fun _ => ¬Resumable ctx)
      (t.withStack (c + 56) s.mem) := by
  have hcode : ∀ x, codeFault t.gdt 0 x = none ↔ x = 0x08 ∨ x = 0x1B := fun x => by
    rw [hgdt]
    exact codeFault_iff tss
  refine wp_iret hnt hcpl h hvm
    (fun hne _ hr => hne ((hcode _).mpr (hr.target.imp_right And.left)))
    (fun hc hrpl => ?_) fun hc hrpl => ?_
  · rcases (hcode _).mp hc with h8 | h1b
    · refine ⟨⟨hdata, Or.inl h8⟩, ?_⟩
      refine ⟨fun r hr => ?_, rfl, rfl, rfl, rfl, fun h1b => ?_, fun _ => ⟨?_, hss, fun r => ?_⟩⟩
      · rw [withStack_reg hr]
        exact congrFun hreg r
      · exact absurd (h8.symm.trans h1b) (by decide)
      · rw [withStack_esp]
        bv_omega
      · exact congrFun hseg r
    · rw [h1b] at hrpl
      exact absurd hrpl (by decide)
  · rcases (hcode _).mp hc with h8 | h1b
    · rw [h8] at hrpl
      exact absurd hrpl (by decide)
    · have hlevel : Selector.rpl.get (lowHalf ctx.cs) = 3 := by
        rw [h1b]
        decide
      rw [hlevel, hgdt, hseg]
      refine ⟨fun hne _ hr => hne ((stackFault_iff tss).mpr ?_), fun hs => ?_⟩
      · rcases hr.target with h8 | ⟨-, hstack⟩
        · exact absurd (h8.symm.trans h1b) (by decide)
        · exact hstack
      · refine ⟨⟨hdata, Or.inr ⟨h1b, (stackFault_iff tss).mp hs⟩⟩, ?_⟩
        refine ⟨fun r hr => ?_, rfl, rfl, rfl, rfl, fun _ => ⟨withStack_esp, rfl, fun r => ?_⟩,
          fun h8 => ?_⟩
        · rw [withStack_reg hr]
          exact congrFun hreg r
        · exact outerSeg_eq tss (hdata r)
        · exact absurd (h8.symm.trans h1b) (by decide)

/-- `i686_userspace_return`. -/
lemma userspaceReturn_wp (hvm : Flag.vm.get ctx.eflags = 0) (h : CallsReturn tss c ctx s) :
    Prog.wp (execAll p i686UserspaceReturn) (fun _ t => Resumable ctx ∧ Resumed c ctx s t)
      (fun _ => ¬Resumable ctx) s := by
  have hcpl : s.cpl = 0 := by
    rw [Processor.cpl, h.cs]
    decide
  have hload : ∀ x, dataFault s.gdt s.cpl x = none ↔ DataSelector 0 x := fun x => by
    rw [h.gdt, hcpl]
    exact dataFault_iff tss (by decide)
  have hctx : HoldsAt s.mem c [ctx.gs, ctx.fs, ctx.es, ctx.ds, ctx.edi, ctx.esi, ctx.ebp, ctx.esp,
      ctx.ebx, ctx.edx, ctx.ecx, ctx.eax, ctx.intNo, ctx.errCode, ctx.eip, ctx.cs, ctx.eflags,
      ctx.useresp, ctx.ss] := h.context
  have hbad : ∀ r, dataFault s.gdt s.cpl (ctx.seg r) ≠ none → ∀ _ : Fault, ¬Resumable ctx :=
    fun r hne _ hr => hne ((hload _).mpr (hr.seg r))
  refine wp_cons (wp_loadEsp h.arg ?_)
  refine wp_cons (wp_popSeg hctx (fun hgs hctx => ?_) (hbad .gs))
  refine wp_cons (wp_popSeg hctx (fun hfs hctx => ?_) (hbad .fs))
  refine wp_cons (wp_popSeg hctx (fun hes hctx => ?_) (hbad .es))
  refine wp_cons (wp_popSeg hctx (fun hds hctx => ?_) (hbad .ds))
  have hdata : ∀ r, DataSelector 0 (ctx.seg r) := fun r => by
    cases r with
    | es => exact (hload _).mp hes
    | ds => exact (hload _).mp hds
    | fs => exact (hload _).mp hfs
    | gs => exact (hload _).mp hgs
  refine wp_cons (wp_popa hctx fun hctx => ?_)
  refine wp_cons (wp_addEsp ?_)
  have hesp : c + 4 + 4 + 4 + 4 + 32 + 8 = c + 56 := by bv_omega
  have hiret : HoldsAt s.mem (c + 56) [ctx.eip, ctx.cs, ctx.eflags, ctx.useresp, ctx.ss] := by
    rw [← hesp, show (8 : BitVec 32) = 4 + 4 from rfl, ← add_assoc]
    exact hctx.2.2
  rw [hesp]
  have hnt : ∀ a b, Flag.nt.get (Flag.add a b s.eflags) = 0 := fun a b => (nt_add a b _).trans h.nt
  refine wp_cons (Prog.wp_mono (resume_wp h.gdt hcpl (hnt _ _) hvm rfl ?_ hdata rfl hiret)
    (fun _ _ ht => ?_) fun _ he => he)
  · funext r
    cases r <;> rfl
  · rw [execAll, Prog.wp_pure]
    exact ht

/-- A resumable context is resumed. -/
lemma Resumable.run (hr : Resumable ctx) (hvm : Flag.vm.get ctx.eflags = 0)
    (h : CallsReturn tss c ctx s) :
    ∃ t, (execAll p i686UserspaceReturn).run s = .ok ((), t) ∧ Resumed c ctx s t := by
  have hwp := Prog.wp_mono (userspaceReturn_wp (p := p) hvm h) (fun _ _ ht => ht.2)
    fun _ hne => hne hr
  rcases Prog.wp_returns hwp with ⟨_, t, hrun, ht⟩
  exact ⟨t, hrun, ht⟩

/-- A selector that user mode can hold, the kernel can load. -/
lemma DataSelector.zero {x : BitVec 16} (h : DataSelector level x) : DataSelector 0 x := by
  rcases h with h | ⟨-, h⟩ | h
  · exact Or.inl h
  · exact Or.inr (Or.inl ⟨rfl, h⟩)
  · exact Or.inr (Or.inr h)

lemma Saves.seg (h : Saves s e level ctx) (r : Seg) : ctx.seg r = s.seg r := by
  cases r with
  | es => exact h.es
  | ds => exact h.ds
  | fs => exact h.fs
  | gs => exact h.gs

/-- **A new thread starts in user mode.**  The context that `i686_thread_alloc` stores is resumed at
the start of the user program, at level 3 with the segments of user mode, with all general registers
0, interrupts off and no access to ports. -/
theorem new_thread_enters_user_mode (hctx : ctx.words = newContext) (h : CallsReturn tss c ctx s) :
    ∃ u, (execAll p i686UserspaceReturn).run s = .ok ((), u) ∧ Level 3 u ∧ u.eip = 0x1000000 ∧
      (∀ r, u.reg r = 0) ∧ Flag.interrupts.get u.eflags = 0 ∧ Flag.iopl.get u.eflags = 0 ∧
      u.mem = s.mem := by
  simp only [I686Context.words, newContext, List.cons.injEq, and_true] at hctx
  rcases hctx with ⟨hgs, hfs, hes, hds, hedi, hesi, hebp, -, hebx, hedx, hecx, heax, -, -, heip, hcs,
    hflags, husp, hss⟩
  have hseg : ∀ r, ctx.seg r = 0x23 := fun r => by
    cases r with
    | es => rw [I686Context.seg, hes]; rfl
    | ds => rw [I686Context.seg, hds]; rfl
    | fs => rw [I686Context.seg, hfs]; rfl
    | gs => rw [I686Context.seg, hgs]; rfl
  have hcs' : lowHalf ctx.cs = 0x1B := by
    rw [hcs]
    rfl
  have hss' : lowHalf ctx.ss = 0x23 := by
    rw [hss]
    rfl
  have hr : Resumable ctx :=
    ⟨fun r => by rw [hseg r]; decide, Or.inr ⟨hcs', hss'⟩⟩
  rcases hr.run (p := p) (by rw [hflags]; decide) h with ⟨u, hu, hres⟩
  rcases hres.user hcs' with ⟨hesp, hss, hsegs⟩
  have hsegs' : ∀ r, u.seg r = 0x23 := fun r => by
    rw [hsegs r, hseg r]
    rfl
  have heflags : u.eflags = 2 := by
    rw [hres.eflags, hflags]
    rfl
  refine ⟨u, hu, ⟨Or.inr rfl, hres.cs.trans hcs', hss.trans hss', fun r => ?_, ?_⟩,
    hres.eip.trans heip, fun r => ?_, ?_, ?_, hres.mem⟩
  · rw [hsegs' r]
    decide
  · rw [heflags]
    decide
  · cases r with
    | esp => exact hesp.trans husp
    | eax => exact (hres.reg .eax (by decide)).trans heax
    | ecx => exact (hres.reg .ecx (by decide)).trans hecx
    | edx => exact (hres.reg .edx (by decide)).trans hedx
    | ebx => exact (hres.reg .ebx (by decide)).trans hebx
    | ebp => exact (hres.reg .ebp (by decide)).trans hebp
    | esi => exact (hres.reg .esi (by decide)).trans hesi
    | edi => exact (hres.reg .edi (by decide)).trans hedi
  · rw [heflags]
    decide
  · rw [heflags]
    decide

end

/-! ## A user program -/

/-- Stubs at sixteen bytes from each other. -/
def smallSymbols : Symbols where
  intHandler n := BitVec.ofNat 32 (0x1000 + 16 * n)
  distinct i hi j hj h := by
    have h' := congrArg BitVec.toNat h
    simp only [BitVec.toNat_ofNat] at h'
    omega
  intEntryReturn := 0x2000

/-- A program in user mode. -/
def userProgram : Processor where
  reg _ := 0x1000
  seg _ := 0x23
  cs := 0x1B
  ss := 0x23
  eip := 0x1000000
  eflags := 2
  mem _ := 0
  gdt := kernelGdt 0x8000
  idt := idtEntries smallSymbols
  esp0 := 0x9000 + 4096 - 4
  ss0 := 0x10

/-- It stores to a page that is not mapped. -/
def pageFault : Event where
  vector := 14
  error := some 6
  resume := 1
  software := false

/-- The kernel before `i686_cpu_init`. -/
def startOfKernel : Processor := { userProgram with cs := 0x08, ss := 0x10, gdt := [], idt := [] }

lemma userProgram_initialised : Initialised id smallSymbols 0x8000 0x9000 userProgram := by
  have hwp : Prog.wp (i686CpuInit id smallSymbols 0x8000 0x9000)
      (fun _ t => TablesLoaded smallSymbols 0x8000 0x9000 t) (fun _ => False) startOfKernel :=
    Prog.wp_mono (i686CpuInit_wp (by decide) (by decide)) (fun _ _ ht => ht.1)
      fun _ hne => hne (by decide)
  rcases Prog.wp_returns hwp with ⟨_, t, hrun, ht⟩
  exact ⟨startOfKernel, t, by decide, by decide, hrun, ht.gdt.symm, ht.idt.symm, ht.ss0.symm,
    ht.esp0.symm⟩

lemma userProgram_level : Level 3 userProgram := by
  refine ⟨Or.inr rfl, rfl, rfl, fun _ => ?_, by decide⟩
  show DataSelector 3 0x23
  decide

/-- It runs `INT3`. -/
def breakpoint : Event where
  vector := 3
  error := none
  resume := 0
  software := true

theorem interrupt_served_iff_user :
    (∃ t, (interruptEntry id smallSymbols pageFault).run userProgram = .ok ((), t)) ∧
      (interruptEntry id smallSymbols breakpoint).run userProgram = .error .generalProtection := by
  have hserved : Served 3 pageFault := by decide
  exact ⟨(interrupt_served_iff userProgram_initialised userProgram_level).1.mpr hserved,
    (interrupt_served_iff userProgram_initialised userProgram_level).2 (by decide)⟩

/-- The context of a new thread. -/
def threadContext : I686Context where
  gs := 0x23
  fs := 0x23
  es := 0x23
  ds := 0x23
  edi := 0
  esi := 0
  ebp := 0
  esp := 0
  ebx := 0
  edx := 0
  ecx := 0
  eax := 0
  intNo := 0
  errCode := 0
  eip := 0x1000000
  cs := 0x1B
  eflags := 0
  useresp := 0
  ss := 0x23

/-- There are calls with every context. -/
lemma exists_callsReturn (tss : BitVec 32) (ctx : I686Context) :
    ∃ c s, CallsReturn tss c ctx s := by
  let s : Processor := { userProgram with cs := 0x08, gdt := kernelGdt tss }
  let c : BitVec 32 := 0x8000 - 76
  have hwp : Prog.wp (Prog.update (Processor.pushAll (ctx.words.reverse ++ [c, 0])) : Code Unit)
      (fun _ t => CallsReturn tss c ctx t) (fun _ => False) (s.withStack 0x8000 s.mem) := by
    refine wp_pushAll (Pushed.start s.mem 0x8000) (by simp [I686Context.words]) fun e' m' h => ?_
    rw [List.reverse_append, List.reverse_reverse, List.append_nil] at h
    have hsp : e' + 4 + 4 = c := by
      rw [show e' = 0x8000 - 84 from h.esp]
      rfl
    have hholds : HoldsAt m' e' (0 :: c :: ctx.words) := h.holds
    refine ⟨rfl, rfl, by show Flag.nt.get 2 = 0; decide, ?_, ?_⟩
    · rw [withStack_esp]
      exact hholds.2.1
    · rw [← hsp]
      exact hholds.2.2
  rcases Prog.wp_returns hwp with ⟨_, t, -, ht⟩
  exact ⟨c, t, ht⟩

theorem new_thread_enters_user_mode_one :
    ∃ c s u, CallsReturn 0x8000 c threadContext s ∧
      (execAll id i686UserspaceReturn).run s = .ok ((), u) ∧ Level 3 u ∧ u.eip = 0x1000000 := by
  rcases exists_callsReturn 0x8000 threadContext with ⟨c, s, h⟩
  rcases new_thread_enters_user_mode rfl h with ⟨u, hu, hlevel, heip, -⟩
  exact ⟨c, s, u, h, hu, hlevel, heip⟩

end Akaris
