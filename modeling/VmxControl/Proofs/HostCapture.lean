import VmxControl.Native.HostState
import VmxControl.Proofs.Masking
import VmxControl.Proofs.Scripted

/-!
# Copying the host state

The registers are not changed while they are copied, so what each field is to hold is known from the
start, and so is what the script answers to each write. The copy goes on as long as the answers are
clear.
-/

namespace VmxControl.Native

/-- The instructions by which a value is read, one at most. -/
def Source.reads : Source → List Instruction
  | .msr r => [.rdmsr r.number]
  | .cr0 => [.readCr0]
  | .cr3 => [.readCr3]
  | .cr4 => [.readCr4]
  | .selector _ => []
  | .constant _ => []

def Source.value (src : Source) (s : Software) : UInt64 := (src.fetch s).1

namespace Software

/-- The flags that a list of instructions leaves, each used up in turn. -/
def replies (s : Software) : List Instruction → List Flags
  | [] => []
  | i :: is => s.answer i :: (s.performed i).replies is

theorem replies_congr {s t : Software} (h : s.failures = t.failures) (is : List Instruction) :
    s.replies is = t.replies is := by
  induction is generalizing s t with
  | nil => rfl
  | cons i is ih =>
    have first : s.answer i = t.answer i := by simp only [answer, h]
    have rest : (s.performed i).replies is = (t.performed i).replies is :=
      ih (by simp only [performed, h])
    rw [replies, replies, first, rest]

/-- The write of a host field, with the value that its source has. -/
def hostWrite (s : Software) (f : UInt32 × Source) : Instruction := .vmwrite f.1 (f.2.value s)

def fetched (s : Software) (src : Source) : Software :=
  { s with executed := src.reads ++ s.executed }

/-- The processor after the copy of one field. -/
def copied (s : Software) (f : UInt32 × Source) : Software :=
  (s.fetched f.2).wrote f.1 (f.2.value s)

theorem fetch_eq (s : Software) (src : Source) : src.fetch s = (src.value s, s.fetched src) := by
  cases src <;> rfl

theorem hostWrite_copied (s : Software) (f : UInt32 × Source) :
    (s.copied f).hostWrite = s.hostWrite := by
  funext g
  obtain ⟨x, src⟩ := g
  cases src <;> rfl

theorem replies_copied (s : Software) (f : UInt32 × Source) (fs : List (UInt32 × Source)) :
    s.replies ((f :: fs).map s.hostWrite) =
      s.answer (s.hostWrite f) :: (s.copied f).replies (fs.map (s.copied f).hostWrite) := by
  rw [List.map_cons, replies, hostWrite_copied]
  have rest := replies_congr (s := s.performed (s.hostWrite f)) (t := s.copied f) rfl
  rw [rest]

end Software

open Software

theorem saveFields_cons_ok {s : Software} {f : UInt32 × Source} (fs : List (UInt32 × Source))
    (h : s.answer (s.hostWrite f) = .clear) :
    saveFields (f :: fs) s = saveFields fs (s.copied f) := by
  have written : (s.fetched f.2).vmwrite f.1 (f.2.value s) = (.ok (), s.copied f) :=
    vmwrite_clear h
  simp [saveFields, fetch_eq, written]

theorem saveFields_cons_error {s : Software} {f : UInt32 × Source} {e : VmFail}
    (fs : List (UInt32 × Source)) (h : (s.answer (s.hostWrite f)).outcome = .error e) :
    saveFields (f :: fs) s = (.error e, (s.fetched f.2).performed (s.hostWrite f)) := by
  have failed : (s.fetched f.2).vmwrite f.1 (f.2.value s) =
      (.error e, (s.fetched f.2).performed (s.hostWrite f)) := vmwrite_failed h
  simp [saveFields, fetch_eq, failed]

/-- The processor after the copy of some fields. -/
def Software.copiedAll (s : Software) (fs : List (UInt32 × Source)) : Software := fs.foldl copied s

/-- Fields whose writes are answered with clear flags are copied one after the other. -/
theorem saveFields_append {s : Software} {fs : List (UInt32 × Source)}
    (gs : List (UInt32 × Source)) (h : ∀ r ∈ s.replies (fs.map s.hostWrite), r = .clear) :
    saveFields (fs ++ gs) s = saveFields gs (s.copiedAll fs) := by
  induction fs generalizing s with
  | nil => rfl
  | cons f fs ih =>
    rw [replies_copied] at h
    have first := h _ List.mem_cons_self
    rw [List.cons_append, saveFields_cons_ok _ first]
    exact ih fun r hr => h r (List.mem_cons_of_mem _ hr)

/-- The first write that is not answered with clear flags is the last. -/
theorem saveFields_stops {s : Software} {fs : List (UInt32 × Source)} {k : Nat} {flags : Flags}
    {later : List Flags} {e : VmFail}
    (h : s.replies (fs.map s.hostWrite) = List.replicate k .clear ++ flags :: later)
    (he : flags.outcome = .error e) :
    ∃ f, fs[k]? = some f ∧
      saveFields fs s =
        (.error e, ((s.copiedAll (fs.take k)).fetched f.2).performed (s.hostWrite f)) := by
  induction k generalizing s fs with
  | zero =>
    cases fs with
    | nil => simp [replies] at h
    | cons f fs =>
      rw [replies_copied] at h
      simp only [List.replicate_zero, List.nil_append, List.cons.injEq] at h
      exact ⟨f, rfl, saveFields_cons_error fs (h.1 ▸ he)⟩
  | succ k ih =>
    cases fs with
    | nil => simp [replies] at h
    | cons f fs =>
      rw [replies_copied] at h
      simp only [List.replicate_succ, List.cons_append, List.cons.injEq] at h
      obtain ⟨g, hg, hs⟩ := ih h.2
      rw [hostWrite_copied] at hs
      exact ⟨g, hg, (saveFields_cons_ok fs h.1).trans hs⟩

namespace Software

variable (s : Software)

theorem hostWrite_copiedAll (fs : List (UInt32 × Source)) :
    (s.copiedAll fs).hostWrite = s.hostWrite := by
  induction fs generalizing s with
  | nil => rfl
  | cons f fs ih => exact (ih (s.copied f)).trans (hostWrite_copied s f)

/-- The registers are as before. -/
theorem registers_copiedAll (fs : List (UInt32 × Source)) :
    (s.copiedAll fs).msrs = s.msrs ∧ (s.copiedAll fs).cr0 = s.cr0 ∧
      (s.copiedAll fs).cr3 = s.cr3 ∧ (s.copiedAll fs).cr4 = s.cr4 := by
  induction fs generalizing s with
  | nil => exact ⟨rfl, rfl, rfl, rfl⟩
  | cons f fs ih => exact ih (s.copied f)

/-- What is executed for one field. -/
def copying (f : UInt32 × Source) : List Instruction := f.2.reads ++ [s.hostWrite f]

theorem executed_tried (f : UInt32 × Source) :
    ((s.fetched f.2).performed (s.hostWrite f)).executed.reverse =
      s.executed.reverse ++ s.copying f := by
  have one : f.2.reads.reverse = f.2.reads := by
    obtain ⟨x, src⟩ := f
    cases src <;> rfl
  simp [performed, fetched, copying, one]

theorem copying_copiedAll (fs : List (UInt32 × Source)) : (s.copiedAll fs).copying = s.copying := by
  funext f
  rw [copying, hostWrite_copiedAll, copying]

theorem executed_copiedAll (fs : List (UInt32 × Source)) :
    (s.copiedAll fs).executed.reverse = s.executed.reverse ++ fs.flatMap s.copying := by
  induction fs generalizing s with
  | nil => simp [copiedAll]
  | cons f fs ih =>
    have first : (s.copied f).executed.reverse = s.executed.reverse ++ s.copying f :=
      executed_tried s f
    have same : (s.copied f).copying = s.copying := copying_copiedAll s [f]
    refine (ih (s.copied f)).trans ?_
    rw [first, same, List.append_assoc, List.flatMap_cons]

theorem fields_copied_other {f : UInt32 × Source} {x : UInt32} (h : x ≠ f.1) :
    (s.copied f).fields.get x = s.fields.get x := Store.get_put_other _ _ h

theorem fields_copiedAll_other {fs : List (UInt32 × Source)} {x : UInt32}
    (h : x ∉ fs.map Prod.fst) : (s.copiedAll fs).fields.get x = s.fields.get x := by
  induction fs generalizing s with
  | nil => rfl
  | cons f fs ih =>
    simp only [List.map_cons, List.mem_cons, not_or] at h
    exact (ih (s.copied f) h.2).trans (fields_copied_other s h.1)

theorem fields_copiedAll {fs : List (UInt32 × Source)} (once : (fs.map Prod.fst).Nodup)
    {f : UInt32 × Source} (hf : f ∈ fs) :
    (s.copiedAll fs).fields.get f.1 = f.2.value s := by
  induction fs generalizing s with
  | nil => exact absurd hf List.not_mem_nil
  | cons g fs ih =>
    obtain ⟨fresh, once⟩ := List.nodup_cons.1 once
    obtain rfl | hf := List.mem_cons.1 hf
    · exact (fields_copiedAll_other _ fresh).trans (Store.get_put_same ..)
    · have same := congrFun (hostWrite_copied s g) f
      simp only [hostWrite, Instruction.vmwrite.injEq, true_and] at same
      exact (ih (s.copied g) once hf).trans same

end Software

/-- When the first writes are answered with clear flags and the next is not, that one is the last
instruction. Its failure is the result, each write before it has come after the reads of its own
source, and nothing but the fields that were written has changed. -/
theorem host_copy_stops_at_first_failure (h : Surroundings) (s : Software) {k : Nat} {flags : Flags}
    {later : List Flags} (hf : flags ≠ .clear)
    (hr : s.replies ((registerFields h).map s.hostWrite) =
      List.replicate k .clear ++ flags :: later) :
    ∃ e t, VmFail.ofFlags flags.cf flags.zf = .error e ∧
      writeHostState h s = (.ok (.error e), t) ∧
      t.executed.reverse =
        s.executed.reverse ++ ((registerFields h).take (k + 1)).flatMap s.copying ∧
      (∀ x, x ∉ ((registerFields h).take k).map Prod.fst → t.fields.get x = s.fields.get x) ∧
      t.msrs = s.msrs ∧ t.cr0 = s.cr0 ∧ t.cr3 = s.cr3 ∧ t.cr4 = s.cr4 := by
  obtain ⟨e, he⟩ := Flags.exists_error hf
  obtain ⟨f, hk, hs⟩ := saveFields_stops hr he
  have last : (registerFields h).take (k + 1) = (registerFields h).take k ++ [f] := by
    rw [List.take_add_one, hk, Option.toList_some]
  have trace := executed_tried (s.copiedAll ((registerFields h).take k)) f
  rw [hostWrite_copiedAll, copying_copiedAll, executed_copiedAll] at trace
  refine ⟨e, ((s.copiedAll ((registerFields h).take k)).fetched f.2).performed (s.hostWrite f), he,
    by rw [writeHostState, hs], ?_, fun x hx => fields_copiedAll_other s hx,
    registers_copiedAll s _⟩
  rw [trace, last, List.flatMap_append, List.flatMap_singleton, List.append_assoc]

/-- Here the third of the writes is refused. -/
theorem host_copy_stops_at_cr0 :
    let s : Software := { failures := [⟨.vmwrite, some Field.hostCr0, ⟨false, true⟩⟩] }
    ∃ e t, VmFail.ofFlags false true = .error e ∧
      writeHostState .process s = (.ok (.error e), t) ∧
      t.executed.reverse =
        s.executed.reverse ++ ((registerFields .process).take 3).flatMap s.copying ∧
      (∀ x, x ∉ ((registerFields .process).take 2).map Prod.fst →
        t.fields.get x = s.fields.get x) ∧
      t.msrs = s.msrs ∧ t.cr0 = s.cr0 ∧ t.cr3 = s.cr3 ∧ t.cr4 = s.cr4 :=
  have answers : Software.replies { failures := [⟨.vmwrite, some Field.hostCr0, ⟨false, true⟩⟩] }
      ((registerFields .process).map (hostWrite _)) =
        List.replicate 2 .clear ++ ⟨false, true⟩ :: List.replicate 10 .clear := by decide
  host_copy_stops_at_first_failure .process _ (by decide) answers

/-- The registers that an exit loads from fields which were copied from registers. -/
structure HostRegisters where
  pat : UInt64
  efer : UInt64
  cr0 : UInt64
  cr3 : UInt64
  cr4 : UInt64
  fsBase : UInt64
  gsBase : UInt64
  deriving DecidableEq, Repr

namespace Software

def hostRegisters (s : Software) : HostRegisters where
  pat := s.msrs.get Msr.pat.number
  efer := s.msrs.get Msr.efer.number
  cr0 := s.cr0
  cr3 := s.cr3
  cr4 := s.cr4
  fsBase := s.msrs.get Msr.fsBase.number
  gsBase := s.msrs.get Msr.gsBase.number

/-- What an exit does with them. -/
def loadHost (s : Software) : Software :=
  { s with
    msrs := (((s.msrs.put Msr.pat.number (s.fields.get Field.hostPat)).put
      Msr.efer.number (s.fields.get Field.hostEfer)).put
      Msr.fsBase.number (s.fields.get Field.hostFsBase)).put
      Msr.gsBase.number (s.fields.get Field.hostGsBase)
    cr0 := s.fields.get Field.hostCr0
    cr3 := s.fields.get Field.hostCr3
    cr4 := s.fields.get Field.hostCr4 }

theorem hostRegisters_loadHost (s : Software) :
    s.loadHost.hostRegisters =
      { pat := s.fields.get Field.hostPat
        efer := s.fields.get Field.hostEfer
        cr0 := s.fields.get Field.hostCr0
        cr3 := s.fields.get Field.hostCr3
        cr4 := s.fields.get Field.hostCr4
        fsBase := s.fields.get Field.hostFsBase
        gsBase := s.fields.get Field.hostGsBase } := by
  simp (disch := decide) [hostRegisters, loadHost, Store.get_put_other]

end Software

/-- A copy writes no fields but those that it is to write, however it ends. -/
theorem saveFields_other {fs : List (UInt32 × Source)} {x : UInt32} (s : Software)
    (h : x ∉ fs.map Prod.fst) : (saveFields fs s).2.fields.get x = s.fields.get x := by
  induction fs generalizing s with
  | nil => rfl
  | cons f fs ih =>
    simp only [List.map_cons, List.mem_cons, not_or] at h
    by_cases hc : s.answer (s.hostWrite f) = .clear
    · rw [saveFields_cons_ok fs hc]
      exact (ih (s.copied f) h.2).trans (fields_copied_other s h.1)
    · obtain ⟨e, he⟩ := Flags.exists_error hc
      rw [saveFields_cons_error fs he]
      rfl

/-- The fields are the same whatever surrounds the code. -/
theorem registerFields_once (h : Surroundings) : ((registerFields h).map Prod.fst).Nodup := by
  have same : (registerFields h).map Prod.fst = (registerFields .process).map Prod.fst := rfl
  rw [same]
  decide

theorem tableFields_apart (h : Surroundings) (base : UInt64) {x : UInt32}
    (hx : x ∈ (registerFields h).map Prod.fst) : x ∉ (tableFields h base).map Prod.fst := by
  have same : (registerFields h).map Prod.fst = (registerFields .process).map Prod.fst := rfl
  have tables : (tableFields h base).map Prod.fst = (tableFields .process 0).map Prod.fst := rfl
  have apart : ((registerFields .process).map Prod.fst).all
      fun y => decide (y ∉ (tableFields .process 0).map Prod.fst) := by decide
  rw [tables]
  exact of_decide_eq_true (List.all_eq_true.1 apart x (same ▸ hx))

/-- The fields of the registers keep what the copy of the registers has left in them. -/
theorem writeHostState_fields {h : Surroundings} {s : Software}
    (hc : ∀ r ∈ s.replies ((registerFields h).map s.hostWrite), r = .clear)
    {f : UInt32 × Source} (hf : f ∈ registerFields h) :
    (writeHostState h s).2.fields.get f.1 = f.2.value s := by
  have hs : saveFields (registerFields h) s = (.ok (), s.copiedAll (registerFields h)) := by
    simpa [saveFields] using saveFields_append [] hc
  have copied := fields_copiedAll s (registerFields_once h) hf
  rw [writeHostState, hs]
  cases hb : taskBase h.task h.gdt with
  | error t => exact copied
  | ok base =>
    have apart := tableFields_apart h base (List.mem_map_of_mem hf)
    have later := saveFields_other (s.copiedAll (registerFields h)) apart
    simp only [later, copied]

/-- If the script lets the writes of the registers pass, an exit loads what they held, but for the
bits of CR3 that are not the address of a page table: it clears those. -/
theorem host_registers_survive_but_for_cr3 (h : Surroundings) (s t : Software)
    (hc : ∀ r ∈ s.replies ((registerFields h).map s.hostWrite), r = .clear)
    (ht : t.fields = (writeHostState h s).2.fields) :
    t.loadHost.hostRegisters = { s.hostRegisters with cr3 := s.cr3 &&& pageTableMask } ∧
      (t.loadHost.hostRegisters = s.hostRegisters ↔ s.cr3 &&& ~~~pageTableMask = 0) := by
  have held : ∀ f ∈ registerFields h, t.fields.get f.1 = f.2.value s :=
    fun f hf => ht ▸ writeHostState_fields hc hf
  have loaded : t.loadHost.hostRegisters =
      { s.hostRegisters with cr3 := s.cr3 &&& pageTableMask } := by
    rw [hostRegisters_loadHost]
    simp only [registerFields, List.forall_mem_cons] at held
    simp [held, Source.value, Source.fetch, Software.rdmsr, readCr0, readCr3, readCr4,
      hostRegisters]
  refine ⟨loaded, ?_⟩
  rw [loaded]
  have split := and_eq_self_iff s.cr3 pageTableMask
  simpa [hostRegisters] using split

/-- A page table at an address and nothing else in CR3. -/
theorem host_registers_survive_plain_cr3 :
    let s : Software := { cr0 := 0x80050033, cr3 := 0x101000, cr4 := 0x620 }
    let t := (writeHostState .process s).2
    t.loadHost.hostRegisters = { s.hostRegisters with cr3 := s.cr3 &&& pageTableMask } ∧
      (t.loadHost.hostRegisters = s.hostRegisters ↔ s.cr3 &&& ~~~pageTableMask = 0) :=
  host_registers_survive_but_for_cr3 .process { cr0 := 0x80050033, cr3 := 0x101000, cr4 := 0x620 } _
    (by decide) rfl

/-- With a tag of the address space in CR3 nothing fails, and another value comes back. -/
theorem host_copy_drops_tag_in_cr3 :
    let s : Software := { cr3 := 0x101018 }
    (∀ r ∈ s.replies ((registerFields .process).map s.hostWrite), r = .clear) ∧
      (writeHostState .process s).2.loadHost.hostRegisters ≠ s.hostRegisters := by
  decide

end VmxControl.Native
