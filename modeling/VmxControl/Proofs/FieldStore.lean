import VmxControl.Proofs.CurrentStructure
import VmxControl.Proofs.Execution

/-!
# Fields as a store

Every control structure keeps the fields that software may write, whether it is current or not. A
field changes only when it is written itself while its structure is current; loading, clearing and
entering structures, and instructions that fail, write other fields. So reading a field gives the
value last written to it, and the entry point of the host stays what loading made it.
-/

namespace VmxControl

namespace Emulator

variable {e : Emulator}

/-- With a current structure a write is taken, except of the fields that only the processor fills. -/
theorem vmwrite_ok {vmcs : PhysAddr} {field : UInt32} (hc : e.current = some vmcs)
    (hf : (Area.ofEncoding field).writable = true) (v : UInt64) :
    e.vmwrite field v = (.ok (), e.next (.vmwrite field v)) := by
  have hne : Area.ofEncoding field ≠ .readOnly := fun h => by
    rw [h] at hf
    cases hf
  rw [next, setWord_eq (e := e.record _) hc]
  simp only [vmwrite, hc, if_neg hne]
  rfl

/-- The structure takes the host to its entry point. -/
def HostEntry (e : Emulator) (a : PhysAddr) : Prop :=
  e.fields.get (a, Field.hostInstructionPointer) = hostEntryPoint

/-- The processor puts nothing else into the entry point of the host. -/
theorem hostEntry_on {c : Command} (h : ∀ v, c ≠ .vmwrite Field.hostInstructionPointer v)
    {a : PhysAddr} {e : Emulator} (he : e.HostEntry a) : (c.on e).HostEntry a := by
  unfold HostEntry at he ⊢
  by_cases hw : c.Writes
  · cases c with
    | vmwrite f v =>
      have hne : Field.hostInstructionPointer ≠ f := fun hf => h v (by rw [hf])
      obtain hn | hs := e.on_cases (.vmwrite f v)
      · rw [hn, next, get_setWord, if_neg fun hx => hne hx.2]
        exact he
      · rw [hs.fields a _ (by decide)]
        exact he
    | _ => exact hw.elim
  · obtain hx | hx := fields_on hw e (f := Field.hostInstructionPointer) (by decide) (by decide)
      (by decide) a
    · exact hx.trans he
    · exact hx.2

end Emulator

/-! ## Calls -/

namespace Core.Root

variable {c : Root} {cur : Current} {f : Field} {s : Machine Emulator}

/-- A write of such a field is refused only for want of a current structure. -/
theorem write_eq (h : ∀ cur, c.current = some cur → s.processor.current = some cur.region.addr)
    (hf : f.Writable) (v : UInt64) :
    c.write f v s =
      if c.current.isSome then
        (.ok (), { s with processor := s.processor.next (.vmwrite f.encoding (f.encode v)) })
      else (.error .invalid, s) := by
  cases hc : c.current with
  | none => simp [write, hc]
  | some cur =>
    have hw := Emulator.vmwrite_ok (h cur hc) hf.of_encoding (f.encode v)
    have ha := Machine.attempt_ok (i := Processor.vmwrite f.encoding (f.encode v)) hw
    simp [write, hc, ha]

/-- A read gives the word of the field, unless it is made to fail. -/
theorem read_cases (hc : c.current = some cur)
    (h : s.processor.current = some cur.region.addr) :
    (s.processor.pending (.vmread f.encoding) = true ∧ ∃ e t, c.read f s = (.error e, t)) ∨
    (s.processor.pending (.vmread f.encoding) = false ∧
      c.read f s =
        (.ok (f.decode (s.processor.fields.get (cur.region.addr, f.encoding))), s)) := by
  obtain ⟨hp, hx⟩ | ⟨hp, hv⟩ := Emulator.vmread_cases h f.encoding
  · obtain ⟨why, q, ha, -⟩ := Machine.attempt_fails (i := Processor.vmread f.encoding) hx
    exact .inl ⟨hp, why, { s with processor := q }, by simp [read, hc, ha]⟩
  · have ha := Machine.attempt_ok (i := Processor.vmread f.encoding) hv
    exact .inr ⟨hp, by simp [read, hc, ha]⟩

/-- Loading writes the entry point of the host. -/
theorem hostEntry_load {d : Root} {t : Machine Emulator} {region : Region .vmcs}
    (h : c.load region s = (.ok (), d, t)) : t.processor.HostEntry region.addr := by
  unfold load at h
  split at h
  · cases h
  · split at h
    · cases h
    · next p hp =>
      split at h
      · next q hq =>
        cases h
        obtain ⟨-, hp⟩ := Emulator.vmptrld_ok (Machine.of_attempt_ok hp).1
        have hcur : p.processor.current = some region.addr := by rw [hp]
        have hw : p.processor.writeHostState = (.ok (), q.processor) := (Machine.of_attempt_ok hq).1
        have ho := p.processor.obeys_writeHostState
        rw [hw] at ho
        show q.processor.HostEntry region.addr
        rw [Emulator.HostEntry, ho.of_ok, Emulator.next, Emulator.get_setWord, if_pos ⟨hcur, rfl⟩]
      · cases h

theorem Entering.region? {c' : Root} {k : Entry} {e : Emulator} {st : Standing}
    (h : c.Entering k e c' st) : c'.region? = c.region? := by
  cases h <;> simp

end Core.Root

namespace RootCall

/-- A write names a field that software may write, and a value of its width. -/
def Typed : RootCall → Prop
  | .write f v => f.Writable ∧ f.width.truncate v = v
  | _ => True

theorem Typed.hostEntry {call : RootCall} {c : Command} (h : call.Typed) (hc : call.Uses c)
    (v : UInt64) : c ≠ .vmwrite Field.hostInstructionPointer v := by
  rintro rfl
  cases call with
  | write f w =>
    obtain hc | hc := hc
    · have he : Field.hostInstructionPointer = f.encoding := by injection hc
      have hf := h.1.of_encoding
      rw [← he] at hf
      cases hf
    · exact hc
  | _ => exact hc

end RootCall

namespace Running

/-- The structure that is current after a call was so before, or it has just been loaded. -/
theorem region?_call {w : Running Emulator} {call : RootCall} {r : Region .vmcs}
    (hr : (w.call call).2.core.region? = some r) :
    w.core.region? = some r ∨
      ∃ d, w.core.load r w.machine = (.ok (), d, (w.call call).2.machine) := by
  cases call with
  | load region =>
    simp only [Running.call] at hr ⊢
    split at hr
    · exact .inl hr
    · next hh =>
      simp only [hh, Bool.false_eq_true, ↓reduceIte]
      obtain ⟨f, t, he, -⟩ | ⟨-, ⟨-, t, he, -⟩ | ⟨-, f, t, he, -⟩ | ⟨-, -, f, t, he, -⟩⟩ :=
        w.core.load_cases region w.machine
      all_goals simp only [he] at hr ⊢
      · exact .inl hr
      · cases hr
        exact .inr ⟨_, he⟩
      · exact .inl hr
      · exact .inl hr
  | clear region =>
    simp only [Running.call] at hr
    split at hr <;> exact .inl hr
  | clearCurrent =>
    obtain ⟨f, t, he, -⟩ | ⟨cur, -, t, he, -⟩ := w.core.clearCurrent_cases w.machine
    all_goals simp only [Running.call, he] at hr
    · exact .inl hr
    · cases hr
  | enter k =>
    obtain ⟨x, c, t, he, hx⟩ := w.core.enter_cases k w.regs w.machine
    simp only [Running.call, he] at hr
    exact .inl (hx.region? ▸ hr)
  | enterCounted k => exact .inl ((w.enter_entering k).region? ▸ hr)
  | run => exact .inl ((w.enter_entering _).region? ▸ hr)
  | dispatch f =>
    have hd : (w.call (.dispatch f)).2.core = w.run.2.core := (w.dispatch_standing f).1
    rw [hd] at hr
    exact .inl ((w.enter_entering _).region? ▸ hr)
  | read | write | invalidateEpt | invalidateVpid => exact .inl hr

/-- The entry point of the host is in the structure that is current. -/
theorem hostEntry_call {w : Running Emulator} {call : RootCall} (hc : call.Typed)
    (h : ∀ r, w.core.region? = some r → w.machine.processor.HostEntry r.addr) {r : Region .vmcs}
    (hr : (w.call call).2.core.region? = some r) :
    (w.call call).2.machine.processor.HostEntry r.addr := by
  obtain hr | ⟨d, hl⟩ := region?_call hr
  · exact (w.executes_call call).keeps (I := fun e => e.HostEntry r.addr)
      (fun _ _ hx => Emulator.hostEntry_on (hc.hostEntry hx)) (h r hr)
  · exact Core.Root.hostEntry_load hl

end Running

/-! ## Runs -/

def Event.Typed : Event → Prop
  | .call (.inRoot c) => c.Typed
  | _ => True

/-- Only a write of a field executes VMWRITE. -/
theorem Call.Uses.not_writes {c : Call} {x : Command} (h : ∀ f v, c ≠ .inRoot (.write f v))
    (hx : c.Uses x) : ¬ x.Writes := by
  intro hw
  cases x with
  | vmwrite f v =>
    cases c with
    | inRoot call =>
      cases call with
      | write g w => exact h g w rfl
      | _ => exact hx
    | _ => exact hx
  | _ => exact hw

namespace Station

variable {s : Station} {f : Field}

/-- What a structure holds in a field, whether it is current or not. -/
def word (s : Station) (a : PhysAddr) (f : Field) : UInt64 :=
  s.machine.processor.fields.get (a, f.encoding)

/-- The value that the event writes to the field of the structure at `a`: the event is a write of
the field that succeeds while this structure is the current one of the core. -/
def writes (s : Station) (e : Event) (a : PhysAddr) (f : Field) : Option UInt64 :=
  match e, s.core with
  | .call (.inRoot (.write g v)), some (.root c) =>
    if g = f ∧ c.region?.map (·.addr) = some a ∧ (c.write g v s.machine).1.isOk then some v
    else none
  | _, _ => none

/-- The value that was written last along the run. -/
def written (s : Station) (a : PhysAddr) (f : Field) : List Event → Option UInt64
  | [] => none
  | e :: es => ((s.step e).written a f es).or (s.writes e a f)

theorem writes_eq_none {e : Event} (h : ∀ g v, e ≠ .call (.inRoot (.write g v))) (a : PhysAddr)
    (f : Field) : s.writes e a f = none := by
  unfold writes
  split
  · next g v c _ => exact absurd rfl (h g v)
  · rfl

theorem word_write {c : Core.Root} {g : Field} {v : UInt64} (hc : s.core = some (.root c))
    (ht : s.RootTracks) (hg : g.Writable ∧ g.width.truncate v = v) (hf : f.Writable) (a : PhysAddr) :
    (s.step (.call (.inRoot (.write g v)))).word a f =
      (s.writes (.call (.inRoot (.write g v))) a f).getD (s.word a f) := by
  have hw := Core.Root.write_eq (s := s.machine) (c := c) (ht _ hc) hg.1 v
  have hstep : (s.step (.call (.inRoot (.write g v)))).word a f =
      (c.write g v s.machine).2.processor.fields.get (a, f.encoding) := by
    simp only [step, act, call, hc]
    rfl
  rw [hstep]
  cases hk : c.current with
  | none => simp [hw, hk, writes, hc, word, Core.Root.region?]
  | some cur =>
    have hcur : (s.machine.processor.record (.vmwrite g.encoding v)).current =
        some cur.region.addr := ht _ hc cur hk
    have hiff : f.encoding = g.encoding ↔ g = f :=
      ⟨fun h => (hf.listed.ext hg.1.listed h).symm, fun h => h ▸ rfl⟩
    have hv : s.writes (.call (.inRoot (.write g v))) a f =
        if g = f ∧ cur.region.addr = a then some v else none := by
      simp [writes, hc, Core.Root.region?, hk, hw, Except.isOk, Except.toBool]
    have hn : (c.write g v s.machine).2.processor.fields.get (a, f.encoding) =
        if cur.region.addr = a ∧ g = f then v else s.word a f := by
      have he : g.encode v = v := hg.2
      simp [hw, hk, he, Emulator.next, Emulator.get_setWord, hcur, hiff]
      rfl
    rw [hv, hn]
    by_cases h : g = f ∧ cur.region.addr = a
    · rw [if_pos h, if_pos h.symm, Option.getD_some]
    · rw [if_neg h, if_neg fun hx => h hx.symm, Option.getD_none]

/-- A step changes no field but the one that it writes, if it writes one. -/
theorem word_step {e : Event} (ht : s.RootTracks) (he : e.Typed) (hf : f.Writable) (a : PhysAddr) :
    (s.step e).word a f = (s.writes e a f).getD (s.word a f) := by
  by_cases hw : ∃ g v, e = .call (.inRoot (.write g v))
  · obtain ⟨g, v, rfl⟩ := hw
    cases hc : s.core with
    | none => simp [step, act, call, writes, hc]
    | some core =>
      cases core with
      | root c => exact word_write hc ht he hf a
      | disabled c | enabled c => simp [step, act, call, writes, hc]
  · have hn : ∀ g v, e ≠ .call (.inRoot (.write g v)) := fun g v h => hw ⟨g, v, h⟩
    rw [writes_eq_none hn, Option.getD_none]
    cases e with
    | influence i => cases i <;> rfl
    | call c =>
      refine (s.executes_call c).keeps (I := fun x => x.fields.get (a, f.encoding) = s.word a f)
        (fun x p hx hp => ?_) rfl
      have hx : ¬ x.Writes := hx.not_writes fun g v h => hn g v (congrArg _ h)
      exact (Emulator.fields_on_of_writable hx p hf.of_encoding a).trans hp

theorem word_run_of_root {es : List Event} (ht : s.RootTracks) (he : ∀ e ∈ es, e.Typed)
    (hf : f.Writable) (a : PhysAddr) :
    (s.run es).word a f = (s.written a f es).getD (s.word a f) := by
  induction es generalizing s with
  | nil => rfl
  | cons e es ih =>
    have hs := word_step ht (he e List.mem_cons_self) hf a
    have hr := ih (rootTracks_step e ht) fun x hx => he x (List.mem_cons_of_mem e hx)
    rw [run_cons, hr, hs, written]
    cases (s.step e).written a f es <;> rfl

/-- After a run every field holds what was written to it last, or else what it held before. -/
theorem word_run {es : List Event} (ht : s.Tracks) (he : ∀ e ∈ es, e.Typed) (hf : f.Writable)
    (a : PhysAddr) : (s.run es).word a f = (s.written a f es).getD (s.word a f) :=
  word_run_of_root ht.rootTracks he hf a

/-- What is written fits the width of the field. -/
theorem writes_fits {e : Event} (he : e.Typed) {a : PhysAddr} {v : UInt64}
    (hv : s.writes e a f = some v) : f.decode v = v := by
  unfold writes at hv
  split at hv
  · next g w c _ =>
    split at hv
    · next hg =>
      cases hv
      exact hg.1 ▸ he.2
    · cases hv
  · cases hv

theorem written_fits {es : List Event} (he : ∀ e ∈ es, e.Typed) {a : PhysAddr} {v : UInt64}
    (hv : s.written a f es = some v) : f.decode v = v := by
  induction es generalizing s with
  | nil => cases hv
  | cons e es ih =>
    rw [written, Option.or_eq_some_iff] at hv
    obtain hv | ⟨-, hv⟩ := hv
    · exact ih (fun x hx => he x (List.mem_cons_of_mem e hx)) hv
    · exact writes_fits (he e List.mem_cons_self) hv

/-- The structure that the core holds takes the host to its entry point. -/
def Hosted (s : Station) : Prop :=
  ∀ c r, s.core = some (.root c) → c.region? = some r → s.machine.processor.HostEntry r.addr

theorem hosted_step {e : Event} (he : e.Typed) (h : s.Hosted) : (s.step e).Hosted := by
  cases e with
  | influence i => cases i <;> exact h
  | call x =>
    cases s.finds x with
    | nothing hn => simpa only [step, act, hn] using h
    | @enable c hc =>
      obtain ⟨t, hx, -⟩ | ⟨f, t, hx, -⟩ := c.enable_cases s.machine
      all_goals
        simp only [step, act, call, hc, hx]
        rintro d r ⟨⟩
    | @disable c hc =>
      simp only [step, act, call, hc]
      rintro d r ⟨⟩
    | @enterRoot c region hc =>
      obtain ⟨-, t, hx, -⟩ | ⟨-, ⟨t, hx, -⟩ | ⟨f, t, hx, -⟩⟩ := c.enterRoot_cases region s.machine
      all_goals simp only [step, act, call, hc, hx]
      · rintro d r ⟨⟩
      · rintro d r ⟨rfl⟩ ⟨⟩
      · rintro d r ⟨⟩
    | @exitRoot c hc =>
      have hk := c.executes_exitRoot s.machine
      obtain ⟨t, hx, -⟩ | ⟨f, t, hx, -⟩ := c.exitRoot_cases s.machine
      all_goals
        rw [hx] at hk
        simp only [step, act, call, hc, hx]
      · rintro d r ⟨⟩
      · rintro d r ⟨rfl⟩ hr
        refine hk.keeps (I := fun e => e.HostEntry r.addr) (fun x p hx => ?_) (h _ r hc hr)
        exact Emulator.hostEntry_on fun v hv => by cases hv ▸ hx
    | @inRoot c call hc =>
      simp only [step, act, Station.call, hc]
      rintro d r ⟨rfl⟩ hr
      exact Running.hostEntry_call (w := s.running c) he (fun r hr => h c r hc hr) hr
    | drop hc =>
      simp only [step, act, call, hc]
      rintro d r ⟨⟩

theorem hosted_run {es : List Event} (he : ∀ e ∈ es, e.Typed) (h : s.Hosted) :
    (s.run es).Hosted := by
  induction es generalizing s with
  | nil => exact h
  | cons e es ih =>
    exact ih (fun x hx => he x (List.mem_cons_of_mem e hx))
      (hosted_step (he e List.mem_cons_self) h)

/-- A run that starts in root operation with nothing current, where writes name fields that software
may write and values of their width. Every such field of every structure holds what was last written
to it while the structure was current, or else what it held before; a read of it that does not fail
gives this value, and only a failure that is pending for it makes a read fail. With a current
structure every write is taken, and the host returns to the entry point that loading wrote. -/
theorem fields_stored_along_runs {c : Core.Root} (hc : s.core = some (.root c))
    (h0 : c.current = none) {es : List Event} (he : ∀ e ∈ es, e.Typed) :
    (∀ f, f.Writable → ∀ a, (s.run es).word a f = (s.written a f es).getD (s.word a f)) ∧
    ∀ c, (s.run es).core = some (.root c) →
      (∀ f, f.Writable → ∀ v, (c.write f v (s.run es).machine).1 =
        if c.current.isSome then .ok () else .error .invalid) ∧
      ∀ cur, c.current = some cur →
        (∀ f, f.Writable → s.word cur.region.addr f = 0 →
          (∀ v, (c.read f (s.run es).machine).1 = .ok v ↔
            (s.run es).machine.processor.pending (.vmread f.encoding) = false ∧
              v = (s.written cur.region.addr f es).getD 0)) ∧
        (s.run es).machine.processor.HostEntry cur.region.addr := by
  have ht : s.Tracks := fun d hd => by
    cases hc.symm.trans hd
    exact fun cur hcur => by cases h0.symm.trans hcur
  have hh : s.Hosted := fun d r hd hr => by
    cases hc.symm.trans hd
    simp [Core.Root.region?, h0] at hr
  have hrun : (s.run es).Tracks := run_keeps (fun _ => tracks_step) ht es
  refine ⟨fun f hf a => word_run ht he hf a, fun d hd => ⟨fun f hf v => ?_, fun cur hcur => ?_⟩⟩
  · rw [Core.Root.write_eq (hrun _ hd) hf]
    split <;> rfl
  · refine ⟨fun f hf hz v => ?_, ?_⟩
    · have hw := word_run ht he hf cur.region.addr
      rw [hz] at hw
      have hfit : f.decode ((s.written cur.region.addr f es).getD 0) =
          (s.written cur.region.addr f es).getD 0 := by
        cases hv : s.written cur.region.addr f es with
        | none => cases hwidth : f.width <;> simp [Field.decode, hwidth, Width.truncate]
        | some v => exact written_fits he hv
      obtain ⟨hp, e, t, hr⟩ | ⟨hp, hr⟩ :=
        Core.Root.read_cases (f := f) hcur (hrun _ hd cur hcur)
      · simp [hr, hp]
      · have hval : f.decode ((s.run es).machine.processor.fields.get
            (cur.region.addr, f.encoding)) = (s.written cur.region.addr f es).getD 0 := by
          rw [← hfit, ← hw]
          rfl
        simp [hr, hp, hval, eq_comm]
    · refine hosted_run he hh d cur.region hd ?_
      rw [Core.Root.region?, hcur, Option.map_some]

def guestRip : Field := ⟨.guest, .natural, 0x681e, "RIP"⟩

def tagField : Field := ⟨.control, .w16, 0, "VPID"⟩

/-- Two structures are loaded in turn. Each is written, the first is also launched, and an entry of
the second fails. -/
def juggled : List Event :=
  [.influence (.host { memory :=
    ((({} : Memory).writeWord 0x100000 Emulator.revision).writeWord 0x101000
      Emulator.revision).writeWord 0x102000 Emulator.revision }),
   loadStructure, .call (.inRoot (.write guestRip 0x1000)), .call (.inRoot .run),
   .call (.inRoot .clearCurrent),
   .call (.inRoot (.load (stamped .vmcs 0x102000))),
   .call (.inRoot (.write guestRip 0x2000)), .call (.inRoot (.write tagField 7)),
   .influence (.failEntry 7), .call (.inRoot .run), .call (.inRoot .clearCurrent),
   loadStructure]

theorem typed_juggled : ∀ e ∈ juggled, e.Typed := by
  simp [juggled, loadStructure, Event.Typed, RootCall.Typed]
  decide

/-- The first structure gives back what was written to it, and nothing that was written to the other
one, which keeps that while it is not current. -/
theorem juggled_structures_keep_fields :
    ∃ c, ((fresh.run toRoot).run juggled).core = some (.root c) ∧
      (c.read guestRip ((fresh.run toRoot).run juggled).machine).1 = .ok 0x1000 ∧
      (c.read tagField ((fresh.run toRoot).run juggled).machine).1 = .ok 0 ∧
      ((fresh.run toRoot).run juggled).word 0x102000 tagField = 7 ∧
      ((fresh.run toRoot).run juggled).machine.processor.HostEntry 0x101000 := by
  obtain ⟨hword, hroot⟩ := fields_stored_along_runs (s := fresh.run toRoot) rfl rfl typed_juggled
  obtain ⟨-, hcur⟩ := hroot ⟨⟨0, Core.announced⟩, stamped .vmxon 0x100000,
    some ⟨stamped .vmcs 0x101000, false⟩⟩ rfl
  obtain ⟨hread, hhost⟩ := hcur ⟨stamped .vmcs 0x101000, false⟩ rfl
  refine ⟨_, rfl, (hread guestRip (by decide) rfl _).2 ⟨rfl, rfl⟩,
    (hread tagField (by decide) rfl _).2 ⟨rfl, rfl⟩, ?_, hhost⟩
  exact hword tagField (by decide) 0x102000

end Station

end VmxControl
