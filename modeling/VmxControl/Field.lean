/-!
# Fields of a virtual-machine control structure

A field is named by a 32-bit encoding. Bits 11:10 of it say whom the field belongs to and bits
14:13 how wide it is, so a table of fields is kept for each area and width. Control and guest
fields may be written; read-only fields are filled in by the processor, and host fields when a
structure is loaded.
-/

namespace VmxControl

inductive Area where
  | control
  | readOnly
  | guest
  | host
  deriving DecidableEq, Repr

inductive Width where
  | w16
  | w32
  | w64
  | natural
  deriving DecidableEq, Repr

namespace Area

/-- Whether software may write the fields of the area. -/
def writable : Area → Bool
  | .control => true
  | .readOnly => false
  | .guest => true
  | .host => false

def ofEncoding (e : UInt32) : Area :=
  match ((e >>> 10) &&& 3).toNat with
  | 0 => .control
  | 1 => .readOnly
  | 2 => .guest
  | _ => .host

end Area

namespace Width

/-- The part of a 64-bit word that a field of this width holds. -/
def truncate : Width → UInt64 → UInt64
  | .w16, v => v.toUInt16.toUInt64
  | .w32, v => v.toUInt32.toUInt64
  | .w64, v => v
  | .natural, v => v

def ofEncoding (e : UInt32) : Width :=
  match ((e >>> 13) &&& 3).toNat with
  | 0 => .w16
  | 1 => .w64
  | 2 => .w32
  | _ => .natural

theorem truncate_truncate (w : Width) (v : UInt64) : w.truncate (w.truncate v) = w.truncate v := by
  cases w <;> apply UInt64.toNat.inj <;> simp [truncate]

end Width

structure Field where
  area : Area
  width : Width
  encoding : UInt32
  name : String
  deriving DecidableEq, Repr

namespace Field

/-- Encodings that the processor or the control plane uses by itself. -/
def instructionError : UInt32 := 0x4400
def exitReason : UInt32 := 0x4402
def exitQualification : UInt32 := 0x6400
def hostPat : UInt32 := 0x2c00
def hostEfer : UInt32 := 0x2c02
def hostCr0 : UInt32 := 0x6c00
def hostCr3 : UInt32 := 0x6c02
def hostCr4 : UInt32 := 0x6c04
def hostFsBase : UInt32 := 0x6c06
def hostGsBase : UInt32 := 0x6c08
def hostStackPointer : UInt32 := 0x6c14
def hostInstructionPointer : UInt32 := 0x6c16

def table : Area → Width → List (UInt32 × String)
  | .control, .w16 =>
     [(0x0, "VPID"), (0x2, "POSTED_INTERRUPT_NOTIFICATION_VECTOR"), (0x4, "EPTP_INDEX")]
  | .control, .w32 =>
     [(0x4000, "PINBASED_EXEC_CONTROLS"), (0x4002, "PRIMARY_PROCBASED_EXEC_CONTROLS"),
     (0x4004, "EXCEPTION_BITMAP"), (0x4006, "PAGE_FAULT_ERR_CODE_MASK"),
     (0x4008, "PAGE_FAULT_ERR_CODE_MATCH"), (0x400a, "CR3_TARGET_COUNT"),
     (0x400c, "VMEXIT_CONTROLS"), (0x400e, "VMEXIT_MSR_STORE_COUNT"),
     (0x4010, "VMEXIT_MSR_LOAD_COUNT"), (0x4012, "VMENTRY_CONTROLS"),
     (0x4014, "VMENTRY_MSR_LOAD_COUNT"), (0x4016, "VMENTRY_INTERRUPTION_INFO_FIELD"),
     (0x4018, "VMENTRY_EXCEPTION_ERR_CODE"), (0x401a, "VMENTRY_INSTRUCTION_LEN"),
     (0x401c, "TPR_THRESHOLD"), (0x401e, "SECONDARY_PROCBASED_EXEC_CONTROLS")]
  | .control, .w64 =>
     [(0x2000, "IO_BITMAP_A_ADDR"), (0x2002, "IO_BITMAP_B_ADDR"), (0x2004, "MSR_BITMAPS_ADDR"),
     (0x2006, "VMEXIT_MSR_STORE_ADDR"), (0x2008, "VMEXIT_MSR_LOAD_ADDR"),
     (0x200a, "VMENTRY_MSR_LOAD_ADDR"), (0x2010, "TSC_OFFSET"), (0x2018, "VM_FUNCTION_CONTROLS"),
     (0x201a, "EPTP"), (0x2024, "EPTP_LIST_ADDR")]
  | .readOnly, .w32 =>
     [(0x4400, "VM_INSTRUCTION_ERROR"), (0x4402, "EXIT_REASON"),
     (0x4404, "VMEXIT_INTERRUPTION_INFO"), (0x4406, "VMEXIT_INTERRUPTION_ERR_CODE"),
     (0x4408, "IDT_VECTORING_INFO"), (0x440a, "IDT_VECTORING_ERR_CODE"),
     (0x440c, "VMEXIT_INSTRUCTION_LEN"), (0x440e, "VMEXIT_INSTRUCTION_INFO")]
  | .readOnly, .w64 =>
     [(0x2400, "GUEST_PHYSICAL_ADDR")]
  | .readOnly, .natural =>
     [(0x6400, "EXIT_QUALIFICATION"), (0x6402, "IO_RCX"), (0x6404, "IO_RSI"), (0x6406, "IO_RDI"),
     (0x6408, "IO_RIP"), (0x640a, "GUEST_LINEAR_ADDR")]
  | .guest, .w16 =>
     [(0x800, "ES_SELECTOR"), (0x802, "CS_SELECTOR"), (0x804, "SS_SELECTOR"),
     (0x806, "DS_SELECTOR"), (0x808, "FS_SELECTOR"), (0x80a, "GS_SELECTOR"),
     (0x80c, "LDTR_SELECTOR"), (0x80e, "TR_SELECTOR"), (0x810, "INTERRUPT_STATUS"),
     (0x812, "PML_INDEX")]
  | .guest, .w32 =>
     [(0x4800, "ES_LIMIT"), (0x4802, "CS_LIMIT"), (0x4804, "SS_LIMIT"), (0x4806, "DS_LIMIT"),
     (0x4808, "FS_LIMIT"), (0x480a, "GS_LIMIT"), (0x480c, "LDTR_LIMIT"), (0x480e, "TR_LIMIT"),
     (0x4810, "GDTR_LIMIT"), (0x4812, "IDTR_LIMIT"), (0x4814, "ES_ACCESS_RIGHTS"),
     (0x4816, "CS_ACCESS_RIGHTS"), (0x4818, "SS_ACCESS_RIGHTS"), (0x481a, "DS_ACCESS_RIGHTS"),
     (0x481c, "FS_ACCESS_RIGHTS"), (0x481e, "GS_ACCESS_RIGHTS"), (0x4820, "LDTR_ACCESS_RIGHTS"),
     (0x4822, "TR_ACCESS_RIGHTS"), (0x4824, "INTERRUPTIBILITY_STATE"), (0x4826, "ACTIVITY_STATE"),
     (0x4828, "SMBASE"), (0x482a, "IA32_SYSENTER_CS"), (0x482e, "VMX_PREEMPTION_TIMER_VALUE")]
  | .guest, .w64 =>
     [(0x2800, "LINK_PTR"), (0x2802, "IA32_DEBUGCTL"), (0x2804, "IA32_PAT"),
     (0x2806, "IA32_EFER"), (0x2808, "IA32_PERF_GLOBAL_CTRL"), (0x280a, "PDPTE0"),
     (0x280c, "PDPTE1"), (0x280e, "PDPTE2"), (0x2810, "PDPTE3"), (0x2812, "IA32_BNDCFGS"),
     (0x2814, "IA32_RTIT_CTL")]
  | .guest, .natural =>
     [(0x6800, "CR0"), (0x6802, "CR3"), (0x6804, "CR4"), (0x6806, "ES_BASE"), (0x6808, "CS_BASE"),
     (0x680a, "SS_BASE"), (0x680c, "DS_BASE"), (0x680e, "FS_BASE"), (0x6810, "GS_BASE"),
     (0x6812, "LDTR_BASE"), (0x6814, "TR_BASE"), (0x6816, "GDTR_BASE"), (0x6818, "IDTR_BASE"),
     (0x681a, "DR7"), (0x681c, "RSP"), (0x681e, "RIP"), (0x6820, "RFLAGS"),
     (0x6822, "PENDING_DBG_EXCEPTIONS"), (0x6824, "IA32_SYSENTER_ESP"),
     (0x6826, "IA32_SYSENTER_EIP")]
  | .host, .w16 =>
     [(0xc00, "ES_SELECTOR"), (0xc02, "CS_SELECTOR"), (0xc04, "SS_SELECTOR"),
     (0xc06, "DS_SELECTOR"), (0xc08, "FS_SELECTOR"), (0xc0a, "GS_SELECTOR"),
     (0xc0c, "TR_SELECTOR")]
  | .host, .w32 =>
     [(0x4c00, "IA32_SYSENTER_CS")]
  | .host, .w64 =>
     [(0x2c00, "IA32_PAT"), (0x2c02, "IA32_EFER")]
  | .host, .natural =>
     [(0x6c00, "CR0"), (0x6c02, "CR3"), (0x6c04, "CR4"), (0x6c06, "FS_BASE"), (0x6c08, "GS_BASE"),
     (0x6c0a, "TR_BASE"), (0x6c0c, "GDTR_BASE"), (0x6c0e, "IDTR_BASE"),
     (0x6c10, "IA32_SYSENTER_ESP"), (0x6c12, "IA32_SYSENTER_EIP"), (0x6c14, "RSP"),
     (0x6c16, "RIP")]
  | .control, .natural => []
  | .readOnly, .w16 => []

def ofTable (a : Area) (w : Width) : List Field :=
  (table a w).map fun e => ⟨a, w, e.1, e.2⟩

/-- The tables by the names that a user gives them. -/
def tableNames : List (String × Area × Width) :=
  [("Control16", .control, .w16), ("Control32", .control, .w32), ("Control64", .control, .w64),
   ("ReadOnly32", .readOnly, .w32), ("ReadOnly64", .readOnly, .w64),
   ("ReadOnlyNW", .readOnly, .natural), ("Guest16", .guest, .w16), ("Guest32", .guest, .w32),
   ("Guest64", .guest, .w64), ("GuestNW", .guest, .natural), ("Host16", .host, .w16),
   ("Host32", .host, .w32), ("Host64", .host, .w64), ("HostNW", .host, .natural)]

def tableOfName? (s : String) : Option (Area × Width) :=
  (tableNames.find? fun t => t.1 == s).map (·.2)

def find? (a : Area) (w : Width) (e : UInt32) : Option Field :=
  (ofTable a w).find? fun f => f.encoding == e

/-- What a read of the field gives for the word that the processor returns. -/
def decode (f : Field) (raw : UInt64) : UInt64 := f.width.truncate raw

/-- The word that a write of the field hands to the processor. -/
def encode (f : Field) (v : UInt64) : UInt64 := f.width.truncate v

/-- The fields of one table with encodings from `lo` up to but not including `hi`. -/
def between (a : Area) (w : Width) (lo hi : UInt64) : List Field :=
  (ofTable a w).filter fun f => lo ≤ f.encoding.toUInt64 && f.encoding.toUInt64 < hi

theorem decode_encode (f : Field) (v : UInt64) : f.decode (f.encode v) = f.width.truncate v :=
  f.width.truncate_truncate v

theorem find?_area {a : Area} {w : Width} {e : UInt32} {f : Field} (h : find? a w e = some f) :
    f.area = a ∧ f.width = w ∧ f.encoding = e := by
  have hm := List.mem_of_find?_eq_some h
  have he := List.find?_some h
  obtain ⟨x, _, rfl⟩ := List.mem_map.1 hm
  exact ⟨rfl, rfl, by simpa using he⟩

/-- Every table agrees with the bits of its encodings. -/
theorem table_area (a : Area) (w : Width) :
    ∀ e ∈ table a w, Area.ofEncoding e.1 = a ∧ Width.ofEncoding e.1 = w := by
  cases a <;> cases w <;> decide

/-- No encoding stands in a table twice. -/
theorem table_apart (a : Area) (w : Width) : (table a w).Pairwise fun x y => x.1 ≠ y.1 := by
  cases a <;> cases w <;> decide

theorem table_unique (a : Area) (w : Width) :
    ∀ ⦃x⦄, x ∈ table a w → ∀ ⦃y⦄, y ∈ table a w → x.1 = y.1 → x = y :=
  List.Pairwise.forall_of_forall_of_flip (fun _ _ _ => rfl)
    ((table_apart a w).imp fun hne he => absurd he hne)
    ((table_apart a w).imp fun hne he => absurd he.symm hne)

/-- The field is one of its table. -/
def Listed (f : Field) : Prop := f ∈ ofTable f.area f.width

instance (f : Field) : Decidable f.Listed := inferInstanceAs (Decidable (_ ∈ _))

theorem Listed.mem {f : Field} (h : f.Listed) : (f.encoding, f.name) ∈ table f.area f.width := by
  obtain ⟨e, he, hf⟩ := List.mem_map.1 h
  have hx : (f.encoding, f.name) = e := by rw [← hf]
  rwa [hx]

theorem Listed.area_eq {f : Field} (h : f.Listed) : Area.ofEncoding f.encoding = f.area :=
  (table_area _ _ _ h.mem).1

theorem Listed.width_eq {f : Field} (h : f.Listed) : Width.ofEncoding f.encoding = f.width :=
  (table_area _ _ _ h.mem).2

/-- An encoding names one field of all the tables. -/
theorem Listed.ext {f g : Field} (hf : f.Listed) (hg : g.Listed) (h : f.encoding = g.encoding) :
    f = g := by
  have ha : f.area = g.area := by rw [← hf.area_eq, h, hg.area_eq]
  have hw : f.width = g.width := by rw [← hf.width_eq, h, hg.width_eq]
  have hm := hg.mem
  rw [← ha, ← hw] at hm
  have hn : (f.encoding, f.name) = (g.encoding, g.name) := table_unique _ _ hf.mem hm h
  cases f
  cases g
  simp_all

/-- The field is one that software may write. -/
structure Writable (f : Field) : Prop where
  listed : f.Listed
  area : f.area.writable = true

instance (f : Field) : Decidable f.Writable :=
  decidable_of_iff (f.Listed ∧ f.area.writable = true) ⟨fun h => ⟨h.1, h.2⟩, fun h => ⟨h.1, h.2⟩⟩

theorem Writable.of_encoding {f : Field} (h : f.Writable) :
    (Area.ofEncoding f.encoding).writable = true :=
  h.listed.area_eq ▸ h.area

end Field

end VmxControl
