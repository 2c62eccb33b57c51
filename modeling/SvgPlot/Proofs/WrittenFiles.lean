import SvgPlot.File.System

/-!
# Written files

What is written to a file is what it holds afterwards, and nothing else in the file system changes.

* `IsTarget` is a path to which so many bytes can be written: it leads to a file or to a free name in a directory, with
  no fault on the way, and the system refuses nothing there. It takes all paths that can be written to but those of
  devices (`isTarget_of_write`).
* `OnlyChanges` says that two file systems are the same but for one spot. Whatever writing comes to, it changes nothing
  but the spot that the path leads to (`onlyChanges_of_write`).
* What was found by a path is found by it afterwards, and a name that was free leads to the new file
  (`locate_of_extends`). So a target holds what has been written (`exists_write_eq`).
-/

namespace SvgPlot

namespace Guard

variable {α : Type} {guard : Guard} {bytes : List UInt8}

theorem pass_of_admits (h : guard.Admits bytes.length) (unchanged : α) (store : List UInt8 → α) :
    guard.pass bytes unchanged store = (.ok (), store bytes) := by
  obtain ⟨hwrite, hroom⟩ := h
  rw [pass, hwrite]
  cases hlimit : guard.room with
  | none => rfl
  | some limit => exact if_neg (Nat.not_lt.2 (hroom limit.1 limit.2 hlimit))

theorem admits_of_pass {unchanged after : α} {store : List UInt8 → α}
    (h : guard.pass bytes unchanged store = (.ok (), after)) : guard.Admits bytes.length ∧ after = store bytes := by
  rw [pass] at h
  cases hwrite : guard.write with
  | some fault =>
    rw [hwrite] at h
    cases h
  | none =>
    rw [hwrite] at h
    cases hlimit : guard.room with
    | none =>
      rw [hlimit] at h
      exact ⟨⟨hwrite, fun room fault hroom => by cases hlimit.symm.trans hroom⟩, (congrArg Prod.snd h).symm⟩
    | some limit =>
      rw [hlimit] at h
      simp only at h
      split at h
      · cases h
      · rename_i hfits
        refine ⟨⟨hwrite, fun room fault hroom => ?_⟩, (congrArg Prod.snd h).symm⟩
        cases hlimit.symm.trans hroom
        exact Nat.not_lt.1 hfits

/-- Something is stored, or nothing changes. -/
theorem snd_pass (bytes : List UInt8) (unchanged : α) (store : List UInt8 → α) :
    (guard.pass bytes unchanged store).2 = unchanged ∨
      ∃ stored, (guard.pass bytes unchanged store).2 = store stored := by
  rw [pass]
  split
  · exact .inl rfl
  · split
    · split
      · exact .inr ⟨_, rfl⟩
      · exact .inr ⟨_, rfl⟩
    · exact .inr ⟨_, rfl⟩

end Guard

namespace FileSystem

/-- The bytes in a file. -/
def content? (s : FileSystem) (number : Nat) : Option (List UInt8) :=
  match s.nodes[number]? with
  | some ⟨.file bytes, _⟩ => some bytes
  | _ => none

/-- A path leads to a file with these bytes in it. -/
def Holds (s : FileSystem) (path : String) (bytes : List UInt8) : Prop :=
  ∃ number, s.locate false path = .ok (.node number) ∧ s.content? number = some bytes

/-- So many bytes can be written to the file that a path leads to, whether it is there or not. -/
structure IsTarget (s : FileSystem) (path : String) (size : Nat) (spot : Spot) : Prop where
  located : s.locate true path = .ok spot
  isFile : ∀ number, spot = .node number → ∃ bytes, s.content? number = some bytes
  admits : ∃ node, s.nodes[spot.place]? = some node ∧ node.guard.Admits size

/-- Nothing has changed but one spot. All other nodes are the same, and so are all names but the one that was free. -/
structure OnlyChanges (s after : FileSystem) (spot : Spot) : Prop where
  nodes : ∀ number, number < s.nodes.length → number ≠ spot.place → after.nodes[number]? = s.nodes[number]?
  found : ∀ directory name number, s.lookUp directory name = .ok (some number) →
    after.lookUp directory name = .ok (some number)
  named : ∀ directory name number, after.lookUp directory name = .ok (some number) →
    s.lookUp directory name = .ok (some number) ∨ spot = .free directory name

variable {s after : FileSystem}

theorem content?_eq_some_iff {number : Nat} {bytes : List UInt8} :
    s.content? number = some bytes ↔ ∃ guard, s.nodes[number]? = some ⟨.file bytes, guard⟩ := by
  rw [content?]
  split
  · rename_i held guard hnode
    rw [hnode]
    constructor
    · rintro ⟨⟩
      exact ⟨guard, rfl⟩
    · rintro ⟨_, ⟨⟩⟩
      rfl
  · rename_i hother
    constructor
    · rintro ⟨⟩
    · rintro ⟨guard, hnode⟩
      exact absurd hnode (hother bytes guard)

/-- A file gives a reader what it holds, unless the system refuses to read it. -/
theorem Holds.read_eq {path : String} {bytes : List UInt8} (h : s.Holds path bytes) :
    s.read path = .ok bytes ∨ ∃ (number : Nat) (node : Node) (fault : FileFault), s.nodes[number]? = some node ∧
      node.guard.read = some fault ∧ s.read path = .error fault := by
  obtain ⟨number, hlocate, hcontent⟩ := h
  obtain ⟨guard, hnode⟩ := content?_eq_some_iff.1 hcontent
  rw [read, hlocate]
  simp only [readNode, hnode]
  cases hguard : guard.read with
  | none => exact .inl rfl
  | some fault => exact .inr ⟨number, _, fault, hnode, hguard, rfl⟩

/-! ## Following paths again -/

/-- All that is found in a file system is found in another one too, and links are the same. -/
structure Extends (s after : FileSystem) : Prop where
  root : after.root = s.root
  here : after.here = s.here
  found : ∀ directory name number, s.lookUp directory name = .ok (some number) →
    after.lookUp directory name = .ok (some number)
  target : ∀ number, after.target? number = s.target? number

/-- The spot is a node, or has become one. -/
def Becomes (after : FileSystem) (number : Nat) : Spot → Prop
  | .node other => other = number
  | .free directory name => after.lookUp directory name = .ok (some number) ∧ after.target? number = none

section

variable {writing : Bool} {spot : Spot} {number : Nat}

theorem Extends.start (h : s.Extends after) (path : Path) (directory : Nat) :
    after.start path directory = s.start path directory := by
  rw [FileSystem.start, h.root, ← FileSystem.start]

theorem descend_of_extends (h : s.Extends after) (hspot : after.Becomes number spot)
    {jump later : Nat → List String → Except FileFault Spot}
    (hjump : ∀ directory names, jump directory names = .ok spot → later directory names = .ok (.node number))
    {directory : Nat} {names : List String} (hdescend : s.descend writing jump directory names = .ok spot) :
    after.descend false later directory names = .ok (.node number) := by
  induction names generalizing directory with
  | nil =>
    cases hdescend
    exact congrArg (Except.ok ∘ Spot.node) hspot
  | cons name names ih =>
    refine descend_cons_eq_ok_iff.2 ⟨nofun, .inr ?_⟩
    obtain ⟨-, ⟨-, rfl, rfl⟩ | ⟨inner, hfound, hrest⟩⟩ := descend_cons_eq_ok_iff.1 hdescend
    · obtain ⟨hnew, hfile⟩ := hspot
      exact ⟨number, hnew, .inl ⟨hfile, rfl⟩⟩
    · refine ⟨inner, h.found _ _ _ hfound, ?_⟩
      rw [h.target]
      rcases hrest with ⟨hnone, hrest⟩ | ⟨path, hpath, hrest⟩
      · exact .inl ⟨hnone, ih hrest⟩
      · refine .inr ⟨path, hpath, hjump _ _ ?_⟩
        rwa [h.start]

theorem follow_of_extends (h : s.Extends after) (hspot : after.Becomes number spot) {links directory : Nat}
    {names : List String} (hfollow : s.follow writing links directory names = .ok spot) :
    after.follow false links directory names = .ok (.node number) := by
  induction links generalizing directory names with
  | zero =>
    refine descend_of_extends h hspot ?_ hfollow
    rintro _ _ ⟨⟩
  | succ links ih => exact descend_of_extends h hspot (fun _ _ => ih) hfollow

/-- A path leads a reader to the node that it led to before, or that the free name stands for now. -/
theorem locate_of_extends (h : s.Extends after) (hspot : after.Becomes number spot) {path : String}
    (hlocate : s.locate writing path = .ok spot) : after.locate false path = .ok (.node number) := by
  rw [locate] at hlocate ⊢
  split at hlocate
  · cases hlocate
  · split at hlocate
    · cases hlocate
    · rw [if_neg ‹_›, if_neg ‹_›, h.start, h.here]
      exact follow_of_extends h hspot hlocate

end

/-! ## Free names -/

section

variable {writing : Bool} {free : Nat} {name : String}

theorem lookUp_of_descend {jump : Nat → List String → Except FileFault Spot}
    (hjump : ∀ directory names, jump directory names = .ok (.free free name) → s.lookUp free name = .ok none)
    {directory : Nat} {names : List String} (h : s.descend writing jump directory names = .ok (.free free name)) :
    s.lookUp free name = .ok none := by
  induction names generalizing directory with
  | nil => cases h
  | cons first names ih =>
    obtain ⟨-, ⟨hnone, -, heq⟩ | ⟨inner, -, ⟨-, hrest⟩ | ⟨path, -, hrest⟩⟩⟩ := descend_cons_eq_ok_iff.1 h
    · cases heq
      exact hnone
    · exact ih hrest
    · exact hjump _ _ hrest

theorem lookUp_of_follow {links directory : Nat} {names : List String}
    (h : s.follow writing links directory names = .ok (.free free name)) : s.lookUp free name = .ok none := by
  induction links generalizing directory names with
  | zero =>
    refine lookUp_of_descend ?_ h
    rintro _ _ ⟨⟩
  | succ links ih => exact lookUp_of_descend (fun _ _ => ih) h

/-- Only a name that is looked up in vain is free. -/
theorem lookUp_of_locate {path : String} (h : s.locate writing path = .ok (.free free name)) :
    s.lookUp free name = .ok none := by
  rw [locate] at h
  split at h
  · cases h
  · split at h
    · cases h
    · exact lookUp_of_follow h

/-- The directory of a free name, whose entries can be seen. -/
theorem exists_directory_of_lookUp (h : s.lookUp free name = .ok none) :
    ∃ parent entries guard, s.nodes[free]? = some ⟨.directory parent entries, guard⟩ ∧ name ≠ Path.slash ∧
      guard.search = none ∧ name ≠ Path.itself ∧ name ≠ Path.outward ∧ entries.lookup name = none := by
  rw [lookUp] at h
  split at h
  · rename_i parent entries guard hnode
    split at h
    · cases h
    · rename_i hslash
      split at h
      · cases h
      · rename_i hsearch
        split at h
        · cases h
        · rename_i hitself
          split at h
          · cases h
          · rename_i houtward
            split at h
            · cases h
            · rename_i hentry
              exact ⟨parent, entries, guard, hnode, hslash, hsearch, hitself, houtward, hentry⟩
  · cases h

end

/-! ## Other content -/

section

variable {number : Nat} {old : List UInt8}

theorem nodes_overwrite_of_ne {other : Nat} (h : other ≠ number) (bytes : List UInt8) :
    (s.overwrite number bytes).nodes[other]? = s.nodes[other]? :=
  List.getElem?_modify_ne _ _ h.symm

theorem content?_overwrite (h : s.content? number = some old) (bytes : List UInt8) :
    (s.overwrite number bytes).content? number = some bytes := by
  obtain ⟨guard, hnode⟩ := content?_eq_some_iff.1 h
  refine content?_eq_some_iff.2 ⟨guard, ?_⟩
  rw [overwrite, List.getElem?_modify_eq, hnode]
  rfl

/-- Nothing is looked up in a file, whatever is in it. -/
theorem lookUp_overwrite (h : s.content? number = some old) (bytes : List UInt8) (directory : Nat) (name : String) :
    (s.overwrite number bytes).lookUp directory name = s.lookUp directory name := by
  by_cases hdirectory : directory = number
  · obtain ⟨guard, hnode⟩ := content?_eq_some_iff.1 h
    obtain ⟨later, hlater⟩ := content?_eq_some_iff.1 (content?_overwrite h bytes)
    rw [hdirectory, lookUp, lookUp, hnode, hlater]
  · rw [lookUp, lookUp, nodes_overwrite_of_ne hdirectory]

theorem target?_overwrite (h : s.content? number = some old) (bytes : List UInt8) (other : Nat) :
    (s.overwrite number bytes).target? other = s.target? other := by
  by_cases hother : other = number
  · obtain ⟨guard, hnode⟩ := content?_eq_some_iff.1 h
    obtain ⟨later, hlater⟩ := content?_eq_some_iff.1 (content?_overwrite h bytes)
    rw [hother, target?, target?, hnode, hlater]
  · rw [target?, target?, nodes_overwrite_of_ne hother]

theorem extends_overwrite (h : s.content? number = some old) (bytes : List UInt8) :
    s.Extends (s.overwrite number bytes) where
  root := rfl
  here := rfl
  found directory name _ hfound := (lookUp_overwrite h bytes directory name).trans hfound
  target := target?_overwrite h bytes

theorem onlyChanges_overwrite (h : s.content? number = some old) (bytes : List UInt8) :
    s.OnlyChanges (s.overwrite number bytes) (.node number) where
  nodes _ _ hne := nodes_overwrite_of_ne hne bytes
  found directory name _ hfound := (lookUp_overwrite h bytes directory name).trans hfound
  named directory name _ hnamed := .inl ((lookUp_overwrite h bytes directory name).symm.trans hnamed)

end

/-! ## New files -/

section

variable {free : Nat} {name : String}

theorem nodes_create_of_lt {other : Nat} (h : other < s.nodes.length) (hne : other ≠ free) (bytes : List UInt8) :
    (s.create free name bytes).nodes[other]? = s.nodes[other]? := by
  rw [create, List.getElem?_append_left (by rwa [List.length_modify]), List.getElem?_modify_ne _ _ hne.symm]

theorem nodes_create_new (bytes : List UInt8) :
    (s.create free name bytes).nodes[s.nodes.length]? = some ⟨.file bytes, {}⟩ := by
  rw [create]
  simp

theorem nodes_create_directory {node : Node} (h : s.nodes[free]? = some node) (name : String) (bytes : List UInt8) :
    (s.create free name bytes).nodes[free]? = some (node.withEntry name s.nodes.length) := by
  have hlt : free < s.nodes.length := (List.getElem?_eq_some_iff.1 h).1
  rw [create, List.getElem?_append_left (by rwa [List.length_modify]), List.getElem?_modify_eq, h]
  rfl

/-- Where there was no node there is a file now, or still none. -/
theorem nodes_create_of_ge {other : Nat} (h : s.nodes.length ≤ other) (free : Nat) (name : String)
    (bytes : List UInt8) :
    s.nodes[other]? = none ∧ ((s.create free name bytes).nodes[other]? = none ∨
      (s.create free name bytes).nodes[other]? = some ⟨.file bytes, {}⟩) := by
  refine ⟨List.getElem?_eq_none h, ?_⟩
  rcases Nat.eq_or_lt_of_le h with heq | hlt
  · rw [← heq]
    exact .inr (nodes_create_new bytes)
  · refine .inl (List.getElem?_eq_none ?_)
    rw [create, List.length_append, List.length_modify]
    exact hlt

/-- What is looked up in other directories is what it was. -/
theorem lookUp_create_of_ne {directory : Nat} (h : directory ≠ free) (bytes : List UInt8) (sought : String) :
    (s.create free name bytes).lookUp directory sought = s.lookUp directory sought := by
  rcases Nat.lt_or_ge directory s.nodes.length with hlt | hge
  · rw [lookUp, lookUp, nodes_create_of_lt hlt h]
  · obtain ⟨hnone, hnew⟩ := nodes_create_of_ge hge free name bytes
    rcases hnew with hnew | hnew <;> rw [lookUp, lookUp, hnone, hnew]

/-- In its directory the new name is found, and every other one as it was. -/
theorem lookUp_create (h : s.lookUp free name = .ok none) (bytes : List UInt8) (sought : String) :
    (s.create free name bytes).lookUp free sought =
      if sought = name then .ok (some s.nodes.length) else s.lookUp free sought := by
  obtain ⟨parent, entries, guard, hnode, hslash, hsearch, hitself, houtward, hentry⟩ := exists_directory_of_lookUp h
  have hlater := nodes_create_directory hnode name bytes
  rw [lookUp, hlater]
  simp only [Node.withEntry, hsearch]
  by_cases hname : sought = name
  · have hfirst : (entries ++ [(name, s.nodes.length)]).lookup name = some s.nodes.length := by
      rw [List.lookup_append, hentry]
      simp
    rw [if_pos hname, hname, if_neg hslash, if_neg hitself, if_neg houtward, hfirst]
  · have hrest : (entries ++ [(name, s.nodes.length)]).lookup sought = entries.lookup sought := by
      rw [List.lookup_append, List.lookup_cons, beq_false_of_ne hname]
      exact Option.or_none
    rw [if_neg hname, hrest, lookUp, hnode]
    simp only [hsearch]

theorem target?_create (h : s.lookUp free name = .ok none) (bytes : List UInt8) (other : Nat) :
    (s.create free name bytes).target? other = s.target? other := by
  obtain ⟨parent, entries, guard, hnode, -⟩ := exists_directory_of_lookUp h
  rcases Nat.lt_or_ge other s.nodes.length with hlt | hge
  · by_cases hother : other = free
    · rw [hother, target?, target?, nodes_create_directory hnode, hnode]
      rfl
    · rw [target?, target?, nodes_create_of_lt hlt hother]
  · obtain ⟨hnone, hnew⟩ := nodes_create_of_ge hge free name bytes
    rcases hnew with hnew | hnew <;> rw [target?, target?, hnone, hnew]

theorem extends_create (h : s.lookUp free name = .ok none) (bytes : List UInt8) :
    s.Extends (s.create free name bytes) where
  root := rfl
  here := rfl
  found directory sought number hfound := by
    by_cases hdirectory : directory = free
    · subst hdirectory
      rw [lookUp_create h, if_neg, hfound]
      rintro rfl
      cases h.symm.trans hfound
    · rw [lookUp_create_of_ne hdirectory, hfound]
  target := target?_create h bytes

theorem becomes_create (h : s.lookUp free name = .ok none) (bytes : List UInt8) :
    (s.create free name bytes).Becomes s.nodes.length (.free free name) := by
  refine ⟨by rw [lookUp_create h, if_pos rfl], ?_⟩
  rw [target?, nodes_create_new]

theorem onlyChanges_create (h : s.lookUp free name = .ok none) (bytes : List UInt8) :
    s.OnlyChanges (s.create free name bytes) (.free free name) where
  nodes _ hlt hne := nodes_create_of_lt hlt hne bytes
  found := (extends_create h bytes).found
  named directory sought number hnamed := by
    by_cases hdirectory : directory = free
    · subst hdirectory
      rw [lookUp_create h] at hnamed
      split at hnamed
      · rename_i hname
        exact .inr (congrArg (Spot.free directory) hname.symm)
      · exact .inl hnamed
    · rw [lookUp_create_of_ne hdirectory] at hnamed
      exact .inl hnamed

end

/-! ## Writing -/

/-- There is a place for content: a file, or a name that is looked up in vain. -/
inductive IsPlace (s : FileSystem) : Spot → Prop
  | file {number : Nat} {old : List UInt8} (h : s.content? number = some old) : IsPlace s (.node number)
  | free {directory : Nat} {name : String} (h : s.lookUp directory name = .ok none) : IsPlace s (.free directory name)

theorem IsPlace.onlyChanges_put {spot : Spot} (h : s.IsPlace spot) (bytes : List UInt8) :
    s.OnlyChanges (s.put spot bytes) spot := by
  cases h with
  | file h => exact onlyChanges_overwrite h bytes
  | free h => exact onlyChanges_create h bytes

/-- The path that has led to a place leads to what is put there. -/
theorem IsPlace.holds_put {spot : Spot} (h : s.IsPlace spot) {path : String}
    (hlocate : s.locate true path = .ok spot) (bytes : List UInt8) : (s.put spot bytes).Holds path bytes := by
  cases h with
  | @file number _ h =>
    have hsame : (s.overwrite number bytes).Becomes number (.node number) := rfl
    exact ⟨number, locate_of_extends (extends_overwrite h bytes) hsame hlocate, content?_overwrite h bytes⟩
  | free h =>
    refine ⟨s.nodes.length, locate_of_extends (extends_create h bytes) (becomes_create h bytes) hlocate, ?_⟩
    exact content?_eq_some_iff.2 ⟨_, nodes_create_new bytes⟩

/-- All that writing can come to: a fault at once, or bytes that are passed on to a file, or to a device. -/
theorem write_cases (s : FileSystem) (path : String) (bytes : List UInt8) :
    (∃ fault, s.write path bytes = (.error fault, s)) ∨
      ∃ spot node, s.locate true path = .ok spot ∧ s.nodes[spot.place]? = some node ∧
        (s.IsPlace spot ∧ s.write path bytes = node.guard.pass bytes s (s.put spot) ∨
          s.write path bytes = node.guard.pass bytes s fun _ => s) := by
  rw [write]
  cases hlocate : s.locate true path with
  | error fault => exact .inl ⟨fault, rfl⟩
  | ok spot =>
    cases hnode : s.nodes[spot.place]? with
    | none => exact .inl ⟨.noSuchFile, by simp only [writeAt, hnode]⟩
    | some node =>
      cases spot with
      | free directory name =>
        have hplace := IsPlace.free (lookUp_of_locate hlocate)
        exact .inr ⟨_, node, rfl, hnode, .inl ⟨hplace, by simp only [writeAt, hnode]⟩⟩
      | node number =>
        obtain ⟨kind, guard⟩ := node
        cases kind with
        | file old =>
          have hplace := IsPlace.file (content?_eq_some_iff.2 ⟨guard, hnode⟩)
          exact .inr ⟨_, _, rfl, hnode, .inl ⟨hplace, by simp only [writeAt, hnode]⟩⟩
        | device => exact .inr ⟨_, _, rfl, hnode, .inr (by simp only [writeAt, hnode])⟩
        | directory => exact .inl ⟨.isADirectory, by simp only [writeAt, hnode]⟩
        | link => exact .inl ⟨.noSuchFile, by simp only [writeAt, hnode]⟩

/-- Whatever writing comes to, nothing changes but the spot that the path leads to. -/
theorem onlyChanges_of_write (s : FileSystem) (path : String) (bytes : List UInt8) :
    (s.write path bytes).2 = s ∨
      ∃ spot, s.locate true path = .ok spot ∧ s.OnlyChanges (s.write path bytes).2 spot := by
  rcases write_cases s path bytes with ⟨fault, h⟩ | ⟨spot, node, hlocate, -, ⟨hplace, h⟩ | h⟩
  · exact .inl (congrArg Prod.snd h)
  · rw [h]
    rcases node.guard.snd_pass bytes s (s.put spot) with hpass | ⟨stored, hpass⟩
    · exact .inl hpass
    · rw [hpass]
      exact .inr ⟨spot, hlocate, hplace.onlyChanges_put stored⟩
  · rw [h]
    rcases node.guard.snd_pass bytes s fun _ => s with hpass | ⟨_, hpass⟩
    · exact .inl hpass
    · exact .inl hpass

/-- All can be written to targets and to devices only, and a device keeps nothing. -/
theorem isTarget_of_write {path : String} {bytes : List UInt8} (h : s.write path bytes = (.ok (), after)) :
    (∃ spot, s.IsTarget path bytes.length spot) ∨ after = s := by
  rcases write_cases s path bytes with ⟨fault, hfault⟩ | ⟨spot, node, hlocate, hnode, ⟨hplace, hpass⟩ | hpass⟩
  · cases h.symm.trans hfault
  · refine .inl ⟨spot, hlocate, ?_, node, hnode, (Guard.admits_of_pass (hpass.symm.trans h)).1⟩
    rintro number rfl
    cases hplace with
    | file hold => exact ⟨_, hold⟩
  · exact .inr (Guard.admits_of_pass (hpass.symm.trans h)).2

theorem IsTarget.isPlace {path : String} {size : Nat} {spot : Spot} (h : s.IsTarget path size spot) :
    s.IsPlace spot := by
  cases spot with
  | node number =>
    obtain ⟨old, hold⟩ := h.isFile number rfl
    exact .file hold
  | free directory name => exact .free (lookUp_of_locate h.located)

/-- What is written to a target is in it afterwards, and nothing else has changed. -/
theorem exists_write_eq {path : String} {bytes : List UInt8} {spot : Spot} (h : s.IsTarget path bytes.length spot) :
    ∃ after, s.write path bytes = (.ok (), after) ∧ after.Holds path bytes ∧ s.OnlyChanges after spot := by
  obtain ⟨node, hnode, hadmits⟩ := h.admits
  have hplace := h.isPlace
  have hwrite : s.write path bytes = node.guard.pass bytes s (s.put spot) := by
    rw [write, h.located]
    cases hplace with
    | free => simp only [writeAt, hnode]
    | file hold =>
      obtain ⟨guard, hfile⟩ := content?_eq_some_iff.1 hold
      obtain rfl := Option.some.inj (hnode.symm.trans hfile)
      simp only [writeAt, hnode]
  refine ⟨s.put spot bytes, ?_, hplace.holds_put h.located bytes, hplace.onlyChanges_put bytes⟩
  rw [hwrite, Guard.pass_of_admits hadmits]

end FileSystem

end SvgPlot
