import PacketOffload.Proofs.Device.Alike
import PacketOffload.Proofs.Files.Storage
import PacketOffload.Proofs.Text.Encoding
import PacketOffload.Proofs.Text.Values
import PacketOffload.Transport.RegisterFiles
import PacketOffload.Transport.Simulator

/-!
# Files in a device's place

The files of a device can show what a simulator holds: each register as text in its own file, and
the memory window byte by byte in the device's file. A host that works on the files then gets the
answers of the simulator, and what it leaves are the files of what it would have left there.

Main statements: each register has its own place in the tree (`RegisterFiles.register_of_locate`),
files and simulator are alike (`RegisterFiles.alike_simulator`), and so whatever a host does comes to
the same on both (`files_work_as_simulator`).
-/

namespace PacketOffload

namespace RegisterFiles

/-- The files show a simulator that refuses no writes. Each register's file holds its value as text,
and the device's file, which is none of these, the words of the memory window. -/
structure Shows (d : RegisterFiles) (sim : Simulator) : Prop where
  register : ∀ (g : RegisterGroup) (index : Nat), index < g.count → ∃ contents text,
    d.tree.read (d.path g index) = .ok contents ∧ contents.bytes = Utf8.encode text ∧
      Text.ShowsValue text (sim.register g index)
  memory : ∃ contents, d.tree.read d.devicePath = .ok contents ∧ contents.size = windowLength ∧
    ∀ offset, InWindow offset → contents.read offset 4 = Bytes.ofWord32 (sim.memory.get offset)
  apart : ∀ (g : RegisterGroup) (index : Nat), index < g.count →
    d.tree.locate (d.path g index) ≠ d.tree.locate d.devicePath
  reliable : sim.failing = none

/-! ## Places of registers -/

theorem ne_dots_of_toString (n : Nat) : toString n ≠ "." ∧ toString n ≠ ".." := by
  have hdot : '.' ∉ (toString n).toList := by
    intro h
    have hdigit : '.' ∈ Nat.toDigits 10 n := Nat.toList_repr ▸ h
    exact absurd (Nat.isDigit_of_mem_toDigits (by decide) (by decide) hdigit) (by decide)
  constructor <;> intro heq <;> exact hdot (heq ▸ by decide)

theorem ne_dots_of_directory (g : RegisterGroup) :
    ∀ name ∈ g.directory, name ≠ "." ∧ name ≠ ".." := by
  have key : ∀ g ∈ RegisterGroup.all, ∀ name ∈ g.directory, name ≠ "." ∧ name ≠ ".." := by
    decide +kernel
  exact key g (RegisterGroup.mem_all g)

/-- A register's file is in the directory of its group, under its index. -/
theorem locate_path {d : RegisterFiles} {g : RegisterGroup} {index : Nat} {place : Path}
    (h : d.tree.locate (d.path g index) = .ok place) :
    ∃ here, d.tree.locate d.base = .ok here ∧ place = here ++ (g.directory ++ [toString index]) := by
  refine FileTree.locate_eq_append ?_ (by rw [← List.append_assoc]; exact h)
  intro name hname
  rcases List.mem_append.1 hname with hname | hname
  · exact ne_dots_of_directory g name hname
  · rw [List.mem_singleton.1 hname]
    exact ne_dots_of_toString index

/-- A place is that of one register only. -/
theorem register_of_locate {d : RegisterFiles} {g k : RegisterGroup} {i j : Nat} {place : Path}
    (h : d.tree.locate (d.path g i) = .ok place) (h' : d.tree.locate (d.path k j) = .ok place) :
    k = g ∧ j = i := by
  obtain ⟨here, hbase, rfl⟩ := locate_path h
  obtain ⟨here', hbase', hplace⟩ := locate_path h'
  obtain rfl := Except.ok.inj (hbase.symm.trans hbase')
  obtain ⟨hdirectory, hindex⟩ := List.append_inj' (List.append_cancel_left hplace) rfl
  exact ⟨(RegisterGroup.directory_injective hdirectory).symm,
    (Text.toString_injective (List.cons.inj hindex).1).symm⟩

/-! ## Accesses -/

variable {d : RegisterFiles} {sim : Simulator}

namespace Shows

theorem readRegister (h : d.Shows sim) {g : RegisterGroup} {index : Nat} (hi : index < g.count) :
    Transport.readRegister d g index = Transport.readRegister sim g index := by
  obtain ⟨contents, text, hread, hbytes, htext⟩ := h.register g index hi
  have hdecoded : d.tree.readText (d.path g index) = .ok (Text.trim text) := by
    simp only [FileTree.readText, hread, hbytes, Utf8.decode?_encode]
  have hregister : d.readRegister g index = .ok (sim.register g index) := by
    simp only [RegisterFiles.readRegister, hdecoded, bind, Except.bind, htext.registerValue?, pure,
      Except.pure]
  exact hregister

/-- The text that is written into a register's file shows the value. -/
theorem showsValue_toString (value : UInt32) :
    Text.ShowsValue (toString value.toNat) value ∧
      ((toString value.toNat).toList.map fun c => UInt8.ofNat c.toNat) =
        Utf8.encode (toString value.toNat) := by
  refine ⟨⟨"", _, "", by simp, by simp, by simp, Or.inl rfl⟩, (Utf8.encode_ascii ?_).symm⟩
  intro c hc
  have hdigit := Nat.isDigit_of_mem_toDigits (by decide) (by decide) (Nat.toList_repr ▸ hc)
  have hle : c.val.toNat ≤ '9'.val.toNat := by
    simp only [Char.isDigit, Bool.and_eq_true, decide_eq_true_eq] at hdigit
    exact UInt32.le_iff_toNat_le.1 hdigit.2
  exact Nat.lt_of_le_of_lt hle (by decide)

/-- A register shows the same value after another file was given other contents. -/
theorem register_put (h : d.Shows sim) {place : Path} {f : FileContents}
    (hnode : d.tree.node place = some (.file f)) (contents : FileContents) {g : RegisterGroup}
    {index : Nat} (hi : index < g.count) (hne : d.tree.locate (d.path g index) ≠ .ok place) :
    ∃ kept text, (d.tree.put place (.file contents)).read (d.path g index) = .ok kept ∧
      kept.bytes = Utf8.encode text ∧ Text.ShowsValue text (sim.register g index) := by
  obtain ⟨kept, text, hread, hbytes, htext⟩ := h.register g index hi
  exact ⟨kept, text, (FileTree.read_put_of_ne hnode hne _).trans hread, hbytes, htext⟩

theorem apart_put (h : d.Shows sim) {place : Path} {f : FileContents}
    (hnode : d.tree.node place = some (.file f)) (contents : FileContents) (g : RegisterGroup)
    (index : Nat) (hi : index < g.count) :
    (d.tree.put place (.file contents)).locate (d.path g index) ≠
      (d.tree.put place (.file contents)).locate d.devicePath := by
  rw [FileTree.locate_put hnode, FileTree.locate_put hnode]
  exact h.apart g index hi

theorem writeRegister (h : d.Shows sim) {g : RegisterGroup} {index : Nat} (hi : index < g.count)
    (value : UInt32) :
    SameOutcome Shows (Transport.writeRegister d g index value)
      (Transport.writeRegister sim g index value) := by
  obtain ⟨old, -, hread, -, -⟩ := h.register g index hi
  obtain ⟨place, hplace, hnode, hwrite⟩ := FileTree.write_eq_put hread
  obtain ⟨hshows, htext⟩ := showsValue_toString value
  have hfiles : d.writeRegister g index value = (.ok (), { d with
      tree := d.tree.put place (.file (.ofBytes (Utf8.encode (toString value.toNat)))) }) := by
    simp only [RegisterFiles.writeRegister, htext, hwrite]
  have hsim : sim.writeRegister g index value = (.ok (), { sim.setRegister g index value with
      writes := sim.writes.push ⟨g, index, value⟩ }) := by
    simp only [Simulator.writeRegister, h.reliable, reduceCtorEq, if_false]
  show SameOutcome Shows (d.writeRegister g index value) (sim.writeRegister g index value)
  rw [hfiles, hsim]
  refine ⟨rfl, fun k j hj => ?_, ?_, h.apart_put hnode _, h.reliable⟩
  · by_cases hkj : k = g ∧ j = index
    · obtain ⟨rfl, rfl⟩ := hkj
      refine ⟨_, _, FileTree.read_put_self hnode hplace _, FileContents.bytes_ofBytes _, ?_⟩
      rw [Simulator.register_setRegister, if_pos ⟨rfl, rfl⟩]
      exact hshows
    · have hkept := h.register_put hnode (.ofBytes (Utf8.encode (toString value.toNat))) hj
        fun heq => hkj (register_of_locate hplace heq)
      rw [Simulator.register_setRegister, if_neg hkj]
      exact hkept
  · obtain ⟨contents, hdevice, hsize, hwords⟩ := h.memory
    have hne : d.tree.locate d.devicePath ≠ .ok place :=
      fun heq => h.apart g index hi (hplace.trans heq.symm)
    exact ⟨contents, (FileTree.read_put_of_ne hnode hne _).trans hdevice, hsize, hwords⟩

theorem checkPosition_of_inWindow {offset : Nat} (ho : InWindow offset) :
    checkPosition offset = .ok () := by
  have hend : offset + 4 ≤ 0x800000 := ho.2
  exact if_pos (Nat.lt_of_le_of_lt hend (by decide))

theorem readWord (h : d.Shows sim) {offset : Nat} (ho : InWindow offset) :
    Transport.readWord d offset = Transport.readWord sim offset := by
  obtain ⟨contents, hdevice, hsize, hwords⟩ := h.memory
  have hfile : d.deviceFile = .ok contents := by
    simp only [deviceFile, hdevice]
  have hfiles : d.readWord offset = .ok (sim.memory.get offset) := by
    simp only [RegisterFiles.readWord, checkPosition_of_inWindow ho, hfile, bind, Except.bind,
      hwords offset ho, Bytes.length_ofWord32, if_true, Bytes.toWord32_ofWord32, pure, Except.pure]
  have hsim : Simulator.checkOffset offset = .ok () := if_pos (by have := ho.2; omega)
  show d.readWord offset = (Simulator.checkOffset offset).map fun _ => sim.memory.get offset
  rw [hfiles, hsim]
  rfl

theorem writeWord (h : d.Shows sim) {offset : Nat} (ho : InWindow offset) (word : UInt32) :
    SameOutcome Shows (Transport.writeWord d offset word) (Transport.writeWord sim offset word) := by
  obtain ⟨contents, hdevice, hsize, hwords⟩ := h.memory
  obtain ⟨place, hplace, hnode, hwrite⟩ := FileTree.write_eq_put hdevice
  have hend : offset + (Bytes.ofWord32 word).length ≤ contents.size := by
    rw [Bytes.length_ofWord32, hsize]
    exact ho.2
  have hfile : d.deviceFile = .ok contents := by
    simp only [deviceFile, hdevice]
  have hwhole : (Bytes.ofWord32 word).take (fileLimit - offset) = Bytes.ofWord32 word := by
    refine List.take_of_length_le ?_
    have hwindow : offset + 4 ≤ 0x800000 := ho.2
    rw [Bytes.length_ofWord32, fileLimit]
    omega
  have hfiles : d.writeWord offset word = (.ok (), { d with
      tree := d.tree.put place (.file (contents.write offset (Bytes.ofWord32 word))) }) := by
    simp only [RegisterFiles.writeWord, checkPosition_of_inWindow ho, hfile, hwhole,
      Bytes.length_ofWord32, if_true, setDeviceFile, hwrite]
  have hsim : Transport.writeWord sim offset word =
      (.ok (), { sim with memory := sim.memory.set offset word }) := by
    have hoffset : Simulator.checkOffset offset = .ok () := if_pos (by have := ho.2; omega)
    simp only [Transport.writeWord, hoffset]
  show SameOutcome Shows (d.writeWord offset word) (Transport.writeWord sim offset word)
  rw [hfiles, hsim]
  refine ⟨rfl, fun g index hi => ?_, ?_, h.apart_put hnode _, h.reliable⟩
  · exact h.register_put hnode _ hi fun heq => h.apart g index hi (heq.trans hplace.symm)
  · refine ⟨_, FileTree.read_put_self hnode hplace _, (FileContents.size_write hend).trans hsize,
      fun other hother => ?_⟩
    rw [Memory.get_set]
    split
    next heq =>
      subst heq
      have hself := FileContents.read_write_self hend
      rw [Bytes.length_ofWord32] at hself
      exact hself
    next hne =>
      -- Both offsets are aligned, so that the two words do not overlap.
      have hout : other + 4 ≤ offset ∨ offset + (Bytes.ofWord32 word).length ≤ other := by
        rw [Bytes.length_ofWord32]
        have := ho.1
        have := hother.1
        omega
      rw [FileContents.read_write_of_apart hend hout]
      exact hwords other hother

end Shows

/-- A host cannot tell the files from the simulator that they show. -/
theorem alike_simulator : Alike Shows where
  readRegister h _ _ hi := h.readRegister hi
  writeRegister h _ _ hi value := h.writeRegister hi value
  readWord h _ ho := h.readWord ho
  writeWord h _ ho word := h.writeWord ho word

end RegisterFiles

/-- **Files work as the simulator that they show.** A session begins on the files as on the
simulator. From then on, whatever is done one after the other, new sessions, register accesses,
accesses to the memory window and calls of the loader, the answers are the same, and the files show
the simulator in the end as well, to sessions and loaders in the same state. -/
theorem files_work_as_simulator :
    (∀ (d : RegisterFiles) (sim : Simulator), d.Shows sim → ∀ ctx, ∃ s t,
      Session.start d ctx = .ok s ∧ Session.start sim ctx = .ok t ∧
        s.Corresponds RegisterFiles.Shows t) ∧
    ∀ (h : Host RegisterFiles) (k : Host Simulator), h.Corresponds RegisterFiles.Shows k →
      ∀ actions : List Action, (h.work actions).1 = (k.work actions).1 ∧
        (h.work actions).2.Corresponds RegisterFiles.Shows (k.work actions).2 := by
  refine ⟨fun d sim hshows ctx => ?_, fun h k hhosts actions => ?_⟩
  · rcases Session.start_alike RegisterFiles.alike_simulator hshows ctx with
      ⟨f, -, hsim⟩ | hstarted
    · -- The simulator answers every read, so that a session always begins.
      cases hsim
    · exact hstarted
  · exact Host.work_alike RegisterFiles.alike_simulator hhosts actions

/-! ## Files after power-on -/

/-- What the register files hold after power-on. -/
def powerOnText : Path → Option String
  | ["regs", "cl", "ctrl", "1"] => some "0x00000001\n"
  | ["regs", _, _, _] => some " 0\n"
  | _ => none

/-- A tree with the files of a device after power-on. -/
def powerOnFiles : RegisterFiles where
  tree := ⟨fun path =>
    match powerOnText path with
    | some text => some (.file (.ofBytes (Utf8.encode text)))
    | none =>
      if path = ["pspin0"] then some (.file ((FileContents.ofBytes []).resize windowLength))
      else if path.length < 4 then some .directory
      else none⟩
  devicePath := ["pspin0"]
  base := ["regs"]

theorem powerOnText_path : ∀ r ∈ RegisterGroup.registers,
    powerOnText (powerOnFiles.path r.1 r.2) =
        (if r = (.clusterControl, resetIndex) then some "0x00000001\n" else some " 0\n") ∧
      (powerOnFiles.tree.locate (powerOnFiles.path r.1 r.2)).toOption =
        some (powerOnFiles.path r.1 r.2) := by
  decide +kernel

theorem locate_powerOnFiles {g : RegisterGroup} {index : Nat} (hi : index < g.count) :
    powerOnFiles.tree.locate (powerOnFiles.path g index) = .ok (powerOnFiles.path g index) := by
  obtain ⟨-, hplace⟩ := powerOnText_path (g, index) (RegisterGroup.mem_registers.2 hi)
  dsimp only at hplace
  cases hl : powerOnFiles.tree.locate (powerOnFiles.path g index) with
  | error e =>
    rw [hl] at hplace
    cases hplace
  | ok place =>
    rw [hl] at hplace
    exact congrArg Except.ok (Option.some.inj hplace)

theorem read_powerOnFiles {g : RegisterGroup} {index : Nat} (hi : index < g.count) {text : String}
    (h : powerOnText (powerOnFiles.path g index) = some text) :
    powerOnFiles.tree.read (powerOnFiles.path g index) = .ok (.ofBytes (Utf8.encode text)) := by
  refine FileTree.read_eq_ok_iff.2 ⟨_, locate_powerOnFiles hi, ?_⟩
  simp only [powerOnFiles] at h ⊢
  rw [h]

theorem shows_powerOn : powerOnFiles.Shows Simulator.powerOn where
  register g index hi := by
    obtain ⟨htext, -⟩ := powerOnText_path (g, index) (RegisterGroup.mem_registers.2 hi)
    dsimp only at htext
    split at htext
    next heq =>
      obtain ⟨rfl, rfl⟩ := Prod.mk.inj heq
      exact ⟨_, _, read_powerOnFiles hi htext, FileContents.bytes_ofBytes _, "", "0x00000001",
        "\n", rfl, List.all_eq_true.1 rfl, List.all_eq_true.1 rfl, Or.inr rfl⟩
    next hne =>
      have hvalue : Simulator.powerOn.register g index = 0 := if_neg fun h => hne (Prod.ext h.1 h.2)
      rw [hvalue]
      exact ⟨_, _, read_powerOnFiles hi htext, FileContents.bytes_ofBytes _, " ", "0", "\n", rfl,
        List.all_eq_true.1 rfl, List.all_eq_true.1 rfl, Or.inl rfl⟩
  memory := by
    refine ⟨_, FileTree.read_eq_ok_iff.2 ⟨["pspin0"], rfl, rfl⟩, rfl, fun offset ho => ?_⟩
    have hcount : min 4 (windowLength - offset) = 4 := Nat.min_eq_left (by have := ho.2; omega)
    have hzero : Simulator.powerOn.memory.get offset = 0 := Memory.get_empty offset
    simp only [FileContents.resize, FileContents.ofBytes, List.length_nil, Nat.zero_le, dite_true,
      FileContents.read, hcount, Memory.getRange, Memory.setRange, Memory.get_empty, hzero]
    rfl
  apart g index hi := by
    rw [locate_powerOnFiles hi]
    intro heq
    have hfirst : some "regs" = some "pspin0" := congrArg List.head? (Except.ok.inj heq)
    exact absurd hfirst (by decide)
  reliable := rfl

/-- A host ends the reset, stores a word and reads it, is refused another read, and goes on with
another session. -/
def firstActions : List Action :=
  [.act (.writeRegister "cl_ctrl" 1 0), .act (.writeWord 8 0x2a), .act (.readWord 8),
    .act (.readWord 6), .start 1, .act (.readRegister "cl_ctrl" 1)]

theorem files_work_as_simulator_after_power_on :
    ∃ s, Session.start powerOnFiles 0 = .ok s ∧
      ((Host.of s).work firstActions).1 =
        [.ok .done, .ok .done, .ok (.value 0x2a), .error (.memoryRange 6), .ok .done,
          .ok (.value 0)] ∧
      ((Host.of s).work firstActions).2.session.contextId = 1 := by
  obtain ⟨hbegin, hwork⟩ := files_work_as_simulator
  obtain ⟨s, t, hs, ht, hst⟩ := hbegin _ _ shows_powerOn 0
  obtain ⟨hanswers, ⟨e, -, hsession⟩, -⟩ := hwork (Host.of s) (Host.of t) ⟨hst, rfl⟩ firstActions
  obtain rfl := Except.ok.inj (ht.symm.trans rfl)
  exact ⟨s, hs, hanswers.trans rfl, (congrArg Session.contextId hsession).symm⟩

end PacketOffload
