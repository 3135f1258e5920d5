import VmxControl.Proofs.FieldStore
import VmxControl.Proofs.Stamping

/-!
# Users of a frame in succession

A frame is stamped for one user after the other: its owner takes a region back and stamps it anew,
or gives the frame back and it is granted again. Stamping erases what the frame holds in memory.
What a user wrote to the fields of its structure the processor keeps elsewhere, by the address of
the frame, and there nothing erases it.
-/

namespace VmxControl

variable {ι : Type}

/-- What can happen in the course of time, whoever has the frame. -/
inductive Turn (ι : Type) where
  | deed (d : Tenure.Deed ι)
  /-- The frame is granted again, with whatever is in it. -/
  | grant
  /-- A core is made for a processor that has none. -/
  | core (i : ι) (id : UInt64) (caps : Capabilities)

namespace Turn

/-- A write names a field that software may write, and a value of its width. -/
def Typed : Turn ι → Prop
  | .deed (.call _ c) => (Event.call c).Typed
  | _ => True

end Turn

/-- The values that were last written to a field of the structure in the frame, after it was stamped
last and before. -/
structure Past where
  since : Option UInt64 := none
  before : Option UInt64 := none

namespace Past

def last (p : Past) : Option UInt64 := p.since.or p.before

def stamped (p : Past) : Past := ⟨none, p.last⟩

def write (p : Past) (v : Option UInt64) : Past := { p with since := v.or p.since }

@[simp] theorem last_stamped (p : Past) : p.stamped.last = p.last := rfl

@[simp] theorem last_write (p : Past) (v : Option UInt64) : (p.write v).last = v.or p.last := by
  cases v <;> rfl

end Past

namespace Tenure

variable {w : Tenure ι} {i : ι} {f : Field}

/-- What the processor of core `i` remembers of a field of the structure in the frame. -/
structure Remembers (w : Tenure ι) (i : ι) (f : Field) (p : Past) : Prop where
  tracks : (w.stations i).RootTracks
  word : (w.stations i).word w.addr f = p.last.getD 0
  fits : ∀ v, p.last = some v → f.decode v = v

/-- What happens at a station writes one value at most, and the processor remembers it. -/
theorem Remembers.run {p : Past} (h : w.Remembers i f p) (hf : f.Writable)
    (es : List Event) (he : ∀ e ∈ es, e.Typed) {w' : Tenure ι} (ha : w'.addr = w.addr)
    (hs : w'.stations i = (w.stations i).run es) {p' : Past}
    (hp : p'.last = ((w.stations i).written w.addr f es).or p.last) : w'.Remembers i f p' where
  tracks := by
    rw [hs]
    exact Station.run_keeps (fun _ => Station.rootTracks_step) h.tracks es
  word := by
    rw [ha, hs, Station.word_run_of_root h.tracks he hf, h.word, hp]
    cases (w.stations i).written w.addr f es <;> rfl
  fits v hv := by
    rw [hp, Option.or_eq_some_iff] at hv
    obtain hv | ⟨-, hv⟩ := hv
    · exact Station.written_fits he hv
    · exact h.fits v hv

theorem decode_last {p : Past} (h : w.Remembers i f p) :
    f.decode (p.last.getD 0) = p.last.getD 0 := by
  cases hv : p.last with
  | none => cases hw : f.width <;> simp [Field.decode, hw, Width.truncate]
  | some v => exact h.fits v hv

/-- A read that does not fail gives what the processor remembers. -/
theorem Remembers.read {p : Past} (h : w.Remembers i f p) {c : Core.Root} {cur : Current}
    (hc : (w.stations i).core = some (.root c)) (hcur : c.current = some cur)
    (ha : cur.region.addr = w.addr) (v : UInt64) :
    (c.read f (w.station i).machine).1 = .ok v ↔
      (w.station i).machine.processor.pending (.vmread f.encoding) = false ∧
        v = p.last.getD 0 := by
  have current : (w.station i).machine.processor.current = some cur.region.addr :=
    h.tracks c hc cur hcur
  have held : (w.station i).machine.processor.fields.get (cur.region.addr, f.encoding) =
      p.last.getD 0 := by
    rw [ha]
    exact h.word
  obtain ⟨hp, e, t, hr⟩ | ⟨hp, hr⟩ := Core.Root.read_cases (f := f) hcur current
  · simp [hr, hp]
  · simp [hr, hp, held, decode_last h, eq_comm]

variable [DecidableEq ι]

def turn (w : Tenure ι) : Turn ι → Tenure ι
  | .deed d => w.step d
  | .grant => if w.place = .gone then { w with place := .hand (.frame ⟨w.addr⟩) } else w
  | .core i id caps =>
    if (w.stations i).core = none then
      { w with
        stations := Function.update w.stations i
          { w.stations i with core := some (.disabled (Core.new id caps)) } }
    else w

def turns (w : Tenure ι) : List (Turn ι) → Tenure ι
  | [] => w
  | t :: ts => (w.turn t).turns ts

/-- What happens at the station of core `i` in a turn. -/
def events (w : Tenure ι) (i : ι) : Turn ι → List Event
  | .deed (.call j c) =>
    if j = i ∧ w.allows c then [.influence (.host w.host), .call c] else []
  | .deed (.influence j x) => if j = i then [.influence x] else []
  | _ => []

/-- The value that a turn writes to the field of the structure in the frame, on the processor of
core `i`. -/
def writes (w : Tenure ι) (i : ι) (f : Field) (t : Turn ι) : Option UInt64 :=
  (w.stations i).written w.addr f (w.events i t)

/-- Whether the frame is stamped. -/
def stamps (w : Tenure ι) : Turn ι → Bool
  | .deed (.stamp _) =>
    match w.place with
    | .hand (.raw _ _) => true
    | _ => false
  | _ => false

def pastAfter (w : Tenure ι) (i : ι) (f : Field) (p : Past) (t : Turn ι) : Past :=
  if w.stamps t then (p.write (w.writes i f t)).stamped else p.write (w.writes i f t)

/-- The past of the field after some turns. -/
def past (w : Tenure ι) (i : ι) (f : Field) (p : Past) : List (Turn ι) → Past
  | [] => p
  | t :: ts => (w.turn t).past i f (w.pastAfter i f p t) ts

theorem last_pastAfter (w : Tenure ι) (i : ι) (f : Field) (p : Past) (t : Turn ι) :
    (w.pastAfter i f p t).last = (w.writes i f t).or p.last := by
  unfold pastAfter
  split <;> simp

@[simp] theorem addr_turn (w : Tenure ι) (t : Turn ι) : (w.turn t).addr = w.addr := by
  cases t with
  | deed d => exact w.addr_step d
  | grant | core =>
    simp only [turn]
    split <;> rfl

@[simp] theorem addr_turns (w : Tenure ι) (ts : List (Turn ι)) : (w.turns ts).addr = w.addr := by
  induction ts generalizing w with
  | nil => rfl
  | cons t ts ih => exact (ih (w.turn t)).trans (w.addr_turn t)

theorem stations_call (w : Tenure ι) (j : ι) (c : Call) (i : ι) :
    (w.call j c).stations i = (w.stations i).run (w.events i (.deed (.call j c))) := by
  unfold call
  by_cases ha : w.allows c
  · by_cases hj : j = i
    · subst hj
      simp [ha, settle, events, Station.step, Station.act, station]
    · simp [ha, settle, events, hj, Ne.symm hj]
  · simp [ha, events]

theorem stations_influence (w : Tenure ι) (j : ι) (x : Influence) (i : ι) :
    (w.step (.influence j x)).stations i =
      (w.stations i).run (w.events i (.deed (.influence j x))) := by
  by_cases hj : j = i
  · subst hj
    simp [step, events, Station.step, Station.act]
  · simp [step, events, hj, Ne.symm hj]

theorem events_quiet {d : Deed ι} (hc : ∀ j c, d ≠ .call j c) (hi : ∀ j x, d ≠ .influence j x) :
    w.events i (.deed d) = [] := by
  cases d with
  | call j c => exact absurd rfl (hc j c)
  | influence j x => exact absurd rfl (hi j x)
  | _ => rfl

-- The cases are the deeds that `Tenure.step` names, in its order, and all that cannot be done.
theorem stations_step (w : Tenure ι) (d : Deed ι) (i : ι) :
    (w.step d).stations i = (w.stations i).run (w.events i (.deed d)) := by
  unfold step
  split
  case h_2 => split <;> rfl
  case h_8 j c => exact w.stations_call j c i
  case h_9 j x => exact w.stations_influence j x i
  case h_11 hc hi _ _ _ _ _ _ _ _ =>
    rw [events_quiet hc hi]
    rfl
  all_goals rfl

/-- A new core is disabled, so it holds nothing. -/
theorem stations_core (w : Tenure ι) (j : ι) (id : UInt64) (caps : Capabilities) (i : ι) :
    (w.turn (.core j id caps)).stations i = w.stations i ∨
      (w.turn (.core j id caps)).stations i =
        { w.stations i with core := some (.disabled (Core.new id caps)) } := by
  simp only [turn]
  split
  · by_cases hj : j = i
    · subst hj
      simp
    · simp [Ne.symm hj]
  · exact .inl rfl

theorem typed_events {t : Turn ι} (ht : t.Typed) : ∀ e ∈ w.events i t, e.Typed := by
  intro e he
  cases t with
  | deed d =>
    cases d with
    | call j c =>
      simp only [events] at he
      split at he
      · obtain rfl | rfl : e = .influence (.host w.host) ∨ e = .call c := by simpa using he
        · exact trivial
        · exact ht
      · exact absurd he List.not_mem_nil
    | influence j x =>
      simp only [events] at he
      split at he
      · obtain rfl : e = .influence x := by simpa using he
        exact trivial
      · exact absurd he List.not_mem_nil
    | _ => exact absurd he List.not_mem_nil
  | grant | core => exact absurd he List.not_mem_nil

theorem Remembers.turn {p : Past} (h : w.Remembers i f p) (hf : f.Writable) {t : Turn ι}
    (ht : t.Typed) : (w.turn t).Remembers i f (w.pastAfter i f p t) := by
  cases t with
  | deed d =>
    exact h.run hf _ (typed_events ht) (w.addr_step d) (w.stations_step d i)
      (w.last_pastAfter i f p _)
  | grant =>
    refine h.run hf [] nofun (w.addr_turn _) ?_ (w.last_pastAfter i f p _)
    simp only [Tenure.turn]
    split <;> rfl
  | core j id caps =>
    obtain hs | hs := w.stations_core j id caps i
    · exact h.run hf [] nofun (w.addr_turn _) hs (w.last_pastAfter i f p _)
    · refine ⟨fun c hc => ?_, ?_, h.fits⟩
      · rw [hs] at hc
        cases hc
      · rw [addr_turn, hs]
        exact h.word

theorem Remembers.turns {p : Past} (h : w.Remembers i f p) (hf : f.Writable) {ts : List (Turn ι)}
    (ht : ∀ t ∈ ts, t.Typed) : (w.turns ts).Remembers i f (w.past i f p ts) := by
  induction ts generalizing w p with
  | nil => exact h
  | cons t ts ih =>
    exact ih (h.turn hf (ht t List.mem_cons_self)) fun t' hm => ht t' (List.mem_cons_of_mem t hm)

/-- A frame whose address was never used, before any core is enabled. -/
structure Unused (w : Tenure ι) : Prop where
  outside : ∀ i c, (w.stations i).core ≠ some (.root c)
  blank : ∀ i f, (w.stations i).word w.addr f = 0

/-- However often a frame was stamped, a read of a field that was written since the last stamp gives
what was written last. Of one that was not written since, it gives what was written last before the
stamp, whoever wrote it; so it gives zero only if that was zero, or if nothing was ever written. -/
theorem stamped_structure_reads_past (h : w.Unused) {ts : List (Turn ι)} (ht : ∀ t ∈ ts, t.Typed)
    {c : Core.Root} {cur : Current} (hc : ((w.turns ts).stations i).core = some (.root c))
    (hcur : c.current = some cur) (ha : cur.region.addr = w.addr) (hf : f.Writable)
    (hp : ((w.turns ts).station i).machine.processor.pending (.vmread f.encoding) = false) :
    let read := (c.read f ((w.turns ts).station i).machine).1
    let past := w.past i f {} ts
    (∀ v, past.since = some v → read = .ok v) ∧
      (past.since = none → read = .ok (past.before.getD 0)) ∧
      (past.since = none → (read = .ok 0 ↔ past.before = none ∨ past.before = some 0)) := by
  have start : w.Remembers i f {} := ⟨fun c hc => absurd hc (h.outside i c), h.blank i f, nofun⟩
  have reads := (start.turns hf ht).read hc hcur (ha.trans (w.addr_turns ts).symm)
  simp only [hp, true_and] at reads
  refine ⟨fun v hv => ?_, fun hn => ?_, fun hn => ?_⟩
  · rw [reads, Past.last, hv, Option.some_or, Option.getD_some]
  · rw [reads, Past.last, hn, Option.none_or]
  · rw [reads, Past.last, hn, Option.none_or]
    cases (w.past i f {} ts).before <;> simp [eq_comm]

/-- One core, a frame, and another one that is stamped for VMX operation. -/
def vacant : Tenure Unit where
  addr := 0x100000
  place := .hand (.frame ⟨0x100000⟩)
  host := { memory := ({} : Memory).writeWord 0x101000 Emulator.revision }
  stations _ := Station.new 0 Core.announced Emulator.new {}

theorem unused_vacant : vacant.Unused where
  outside _ _ := by simp [vacant, Station.new]
  blank _ _ := by simp [vacant, Station.new, Station.word, Emulator.new]

def loading : List (Turn Unit) :=
  [.deed (.stamp Core.announced),
    .deed (.call () (.inRoot (.load (Station.stamped .vmcs 0x100000))))]

/-- Its first user writes the frame and clears it. -/
def firstUser : List (Turn Unit) :=
  [.deed (.call () .enable),
    .deed (.call () (.enterRoot (Station.stamped .vmxon 0x101000))),
    .deed (.setAside .vmcs)] ++ loading ++
  [.deed (.call () (.inRoot (.write Station.guestRip 0x1000))),
    .deed (.call () (.inRoot .clearCurrent))]

/-- The frame is given back, granted again and stamped for another user. -/
def regranted : List (Turn Unit) :=
  firstUser ++ [.deed .free, .grant, .deed (.setAside .vmcs)] ++ loading

theorem typed_regranted : ∀ t ∈ regranted, t.Typed := by
  simp [regranted, firstUser, loading, Turn.Typed, Event.Typed, RootCall.Typed]
  decide

/-- The second user of the frame reads what the first has written. -/
theorem regranted_structure_reads_past :
    ∃ c, ((vacant.turns regranted).stations ()).core = some (.root c) ∧
      (vacant.past () Station.guestRip {} regranted).since = none ∧
      (c.read Station.guestRip ((vacant.turns regranted).station ()).machine).1 = .ok 0x1000 := by
  obtain ⟨-, hn, -⟩ := stamped_structure_reads_past (i := ()) (f := Station.guestRip) unused_vacant
    typed_regranted (c := ⟨⟨0, Core.announced⟩, Station.stamped .vmxon 0x101000,
      some ⟨Station.stamped .vmcs 0x100000, false⟩⟩) rfl rfl rfl (by decide) rfl
  exact ⟨_, rfl, rfl, hn rfl⟩

/-- So does whoever loads the structure after it was only stamped anew, though nothing has been
written since. -/
theorem restamped_structure_is_not_blank :
    let ts := firstUser ++ .deed .unstamp :: loading
    ∃ c, ((vacant.turns ts).stations ()).core = some (.root c) ∧
      c.region? = some (Station.stamped .vmcs vacant.addr) ∧
      (vacant.past () Station.guestRip {} ts).since = none ∧
      (c.read Station.guestRip ((vacant.turns ts).station ()).machine).1 ≠ .ok 0 :=
  ⟨_, rfl, rfl, rfl, by decide⟩

end Tenure

end VmxControl
