import PacketOffload.Files.Tree

/-!
# Files keep what is written

A file of a tree can be given other contents at any time. Nothing else in the tree changes, and no
path leads anywhere else than before, so that the paths to this file show the new contents and all
other paths show what they did. Inside a file, bytes written in place of others leave its size and
the bytes around them alone.

Main statements: what paths show after a file was given other contents (`FileTree.read_put_self`,
`FileTree.read_put_of_ne`), where a path leads from the directory at its beginning
(`FileTree.locate_eq_append`), and what bytes a file shows after a write inside it
(`FileContents.read_write_self`, `FileContents.read_write_of_apart`).
-/

namespace PacketOffload

namespace FileTree

variable {t : FileTree} {place path : Path} {f : FileContents}

/-- Other contents of a file are no detour. -/
theorem locate_put (h : t.node place = some (.file f)) (contents : FileContents) (path : Path) :
    (t.put place (.file contents)).locate path = t.locate path := by
  have henter : (t.put place (.file contents)).enter = t.enter := by
    funext here name
    by_cases hh : here = place
    · subst hh
      simp [enter, put, h]
    · simp [enter, put, hh]
  rw [locate, locate, henter]

theorem read_eq_ok_iff :
    t.read path = .ok f ↔ ∃ place, t.locate path = .ok place ∧ t.node place = some (.file f) := by
  unfold read find
  cases t.locate path with
  | error e => simp
  | ok place =>
    rcases hnode : t.node place with _ | ⟨_ | contents⟩ <;> simp [hnode]

/-- The paths to a file show its new contents. -/
theorem read_put_self (h : t.node place = some (.file f)) (hpath : t.locate path = .ok place)
    (contents : FileContents) : (t.put place (.file contents)).read path = .ok contents :=
  read_eq_ok_iff.2 ⟨place, (locate_put h contents path).trans hpath, if_pos rfl⟩

/-- All other paths show what they did. -/
theorem read_put_of_ne (h : t.node place = some (.file f)) (hpath : t.locate path ≠ .ok place)
    (contents : FileContents) : (t.put place (.file contents)).read path = t.read path := by
  unfold read find
  rw [locate_put h]
  cases hother : t.locate path with
  | error e => rfl
  | ok other =>
    have hne : other ≠ place := fun heq => hpath (heq ▸ hother)
    simp only [put, hne, if_false]

theorem write_eq_put (h : t.read path = .ok f) : ∃ place, t.locate path = .ok place ∧
    t.node place = some (.file f) ∧
    ∀ contents, t.write path contents = .ok (t.put place (.file contents)) := by
  obtain ⟨place, hplace, hnode⟩ := read_eq_ok_iff.1 h
  exact ⟨place, hplace, hnode, fun contents => by simp only [write, hplace, hnode]⟩

theorem read_write (h : t.read path = .ok f) (contents : FileContents) :
    ∃ u, t.write path contents = .ok u ∧ u.read path = .ok contents := by
  obtain ⟨place, hplace, hnode, hwrite⟩ := write_eq_put h
  exact ⟨_, hwrite contents, read_put_self hnode hplace contents⟩

/-! ## Paths -/

theorem foldlM_enter {here : Path} {names : List String}
    (hnames : ∀ name ∈ names, name ≠ "." ∧ name ≠ "..") (h : names.foldlM t.enter here = .ok place) :
    place = here ++ names := by
  induction names generalizing here with
  | nil => exact (Except.ok.inj h).symm.trans (List.append_nil here).symm
  | cons name names ih =>
    obtain ⟨hdot, hdots⟩ := hnames name List.mem_cons_self
    rw [List.foldlM_cons] at h
    cases hnext : t.enter here name with
    | error e =>
      rw [hnext] at h
      cases h
    | ok next =>
      have hentered : next = here ++ [name] := by
        unfold enter at hnext
        split at hnext
        · cases hnext
        · cases hnext
        · rw [if_neg hdot, if_neg hdots] at hnext
          split at hnext
          · cases hnext
          · exact (Except.ok.inj hnext).symm
      rw [hnext] at h
      rw [ih (fun other ho => hnames other (List.mem_cons_of_mem name ho)) h, hentered,
        List.append_assoc]
      rfl

/-- Where a path leads whose last names are those of directories and files. -/
theorem locate_eq_append {base : Path} {names : List String}
    (hnames : ∀ name ∈ names, name ≠ "." ∧ name ≠ "..")
    (h : t.locate (base ++ names) = .ok place) :
    ∃ here, t.locate base = .ok here ∧ place = here ++ names := by
  rw [locate, List.foldlM_append] at h
  cases hbase : base.foldlM t.enter [] with
  | error e =>
    rw [hbase] at h
    cases h
  | ok here =>
    rw [hbase] at h
    exact ⟨here, hbase, foldlM_enter hnames h⟩

end FileTree

namespace FileContents

variable {f : FileContents} {start other count : Nat} {data : Bytes}

theorem bytes_ofBytes (bytes : Bytes) : (ofBytes bytes).bytes = bytes := by
  refine List.ext_getElem (by simp [FileContents.bytes, ofBytes]) fun i hi hb => ?_
  simp [FileContents.bytes, read, ofBytes, Memory.getRange, Memory.get_setRange, hb]

theorem size_write (h : start + data.length ≤ f.size) : (f.write start data).size = f.size := by
  unfold write
  split
  · rfl
  · exact Nat.max_eq_left h

/-- What is written inside a file is what is there. -/
theorem read_write_self (h : start + data.length ≤ f.size) :
    (f.write start data).read start data.length = data := by
  have hlength : min data.length (f.size - start) = data.length := by omega
  refine List.ext_getElem (by simp [size_write h, hlength]) fun i hi hd => ?_
  simp [read, Memory.getRange, get_write, hd]

/-- Bytes beside what is written stay. -/
theorem read_write_of_apart (h : start + data.length ≤ f.size)
    (hout : other + count ≤ start ∨ start + data.length ≤ other) :
    (f.write start data).read other count = f.read other count := by
  rw [read, read, size_write h]
  refine List.map_congr_left fun i hi => ?_
  have hlt := List.mem_range.1 hi
  rw [get_write]
  split
  next hle =>
    have hnone : data[other + i - start]? = none := List.getElem?_eq_none (by omega)
    rw [hnone, Option.getD_none]
  next => rfl

end FileContents

end PacketOffload
