import SvgPlot.Markup.Attribute

/-!
# Attributes without their faults

Reading the attributes of a tag does four things at once: it cuts the text, compares the keys, replaces the references
and fills a dictionary. Here they are told apart.

* `splitAttributes` only cuts; positions and earlier keys play no part in it (`readAttribute_eq_ok_iff`).
* `readAttributes_eq_ok_iff` says that reading succeeds if the text can be cut, no key comes twice and every value can
  be expanded, and which dictionary it gives then.
* `Dictionary.ofList_of_perm` says that a dictionary does not depend on the order of its entries.
-/

namespace SvgPlot

namespace Dictionary

theorem insertEntry_perm {key value : String} {entries : List (String × String)}
    (h : key ∉ entries.map Prod.fst) : (insertEntry key value entries).Perm ((key, value) :: entries) := by
  induction entries with
  | nil => exact List.Perm.refl _
  | cons head rest ih =>
    obtain ⟨k, v⟩ := head
    simp only [List.map_cons, List.mem_cons, not_or] at h
    rw [insertEntry, if_neg h.1]
    split
    · exact List.Perm.refl _
    · exact ((ih h.2).cons (k, v)).trans (List.Perm.swap ..)

theorem entries_foldl_insert_perm (entries : List (String × String)) :
    ∀ d : Dictionary, (entries.map Prod.fst ++ d.entries.map Prod.fst).Nodup →
      ((entries.foldl (fun d e => d.insert e.1 e.2) d).entries).Perm (entries ++ d.entries) := by
  induction entries with
  | nil => exact fun d _ => List.Perm.refl _
  | cons e rest ih =>
    intro d hnodup
    obtain ⟨key, value⟩ := e
    simp only [List.map_cons, List.cons_append, List.nodup_cons, List.mem_append, not_or] at hnodup
    obtain ⟨⟨hrest, hd⟩, hothers⟩ := hnodup
    have hinsert : (d.insert key value).entries.Perm ((key, value) :: d.entries) := insertEntry_perm hd
    have hnext : (rest.map Prod.fst ++ (d.insert key value).entries.map Prod.fst).Nodup := by
      refine (((hinsert.map Prod.fst).append_left _).nodup_iff).2 ?_
      rw [List.map_cons, List.perm_middle.nodup_iff, List.nodup_cons, List.mem_append, not_or]
      exact ⟨⟨hrest, hd⟩, hothers⟩
    rw [List.foldl_cons]
    refine (ih _ hnext).trans ?_
    exact (hinsert.append_left rest).trans List.perm_middle

/-- Two dictionaries with the same entries in any order are equal. -/
theorem eq_of_perm {a b : Dictionary} (h : a.entries.Perm b.entries) : a = b := by
  obtain ⟨as, ha⟩ := a
  obtain ⟨bs, hb⟩ := b
  have : as = bs := by
    refine h.eq_of_pairwise (fun x y _ _ hxy hyx => ?_) ha hb
    exact absurd (String.lt_trans hxy hyx) (String.lt_irrefl _)
  subst this
  rfl

theorem nodup_keys (d : Dictionary) : (d.entries.map Prod.fst).Nodup := by
  refine List.pairwise_map.2 (d.sorted.imp fun hlt heq => ?_)
  exact absurd (heq ▸ hlt) (String.lt_irrefl _)

/-- The entries of a dictionary give it back in any order. -/
theorem ofList_of_perm {d : Dictionary} {entries : List (String × String)} (h : entries.Perm d.entries) :
    ofList entries = d := by
  refine eq_of_perm ?_
  have hnodup : (entries.map Prod.fst).Nodup := ((h.map Prod.fst).nodup_iff).2 d.nodup_keys
  have hempty : (empty : Dictionary).entries = [] := rfl
  have hperm := entries_foldl_insert_perm entries empty (by simpa [hempty] using hnodup)
  rw [hempty, List.append_nil] at hperm
  exact hperm.trans h

end Dictionary

namespace Markup

/-! ## Cutting a text into attributes -/

/-- The key of an attribute and what its value says. -/
def RawAttribute.decode? (raw : RawAttribute) : Option (String × String) :=
  match expand raw.value with
  | .ok value => some (String.ofList raw.key, String.ofList value)
  | .error _ => none

theorem checkKey_eq_ok_iff (seen : SeenKeys) (key : List Char) (position : Nat) :
    checkKey seen key position = .ok () ↔ key ∉ seen.map Prod.fst := by
  unfold checkKey
  split
  · rename_i found earlier hfind
    have hmem : key ∈ seen.map Prod.fst := by
      refine List.mem_map.2 ⟨_, List.mem_of_find?_eq_some hfind, ?_⟩
      simpa using List.find?_some hfind
    simp [hmem]
  · rename_i hfind
    rw [List.find?_eq_none] at hfind
    simp only [true_iff, List.mem_map, not_exists, not_and]
    intro earlier hmem hkey
    exact hfind earlier hmem (by simp [hkey])

/-- Positions only go into faults. -/
theorem readValue_eq_ok_iff (locate : List Char → Nat) {text : List Char} {result : List Char × List Char} :
    readValue locate text = .ok result ↔ readValue (fun _ => 0) text = .ok result := by
  unfold readValue
  split
  · simp
  · split
    · split <;> simp
    · simp

theorem readAttribute_eq_ok_iff {locate : List Char → Nat} {seen : SeenKeys} {first : Char} {rest after : List Char}
    {raw : RawAttribute} :
    readAttribute locate seen first rest = .ok (raw, after) ↔
      readAttribute (fun _ => 0) [] first rest = .ok (raw, after) ∧ raw.key ∉ seen.map Prod.fst := by
  obtain ⟨key, value⟩ := raw
  simp only [readAttribute]
  split
  · rename_i text htext
    have hfree : checkKey [] (first :: rest.takeWhile continuesKey) 0 = .ok () := rfl
    have hseen := checkKey_eq_ok_iff seen (first :: rest.takeWhile continuesKey) (locate (first :: rest))
    have hvalue := fun result => @readValue_eq_ok_iff locate text result
    rw [hfree]
    cases hcheck : checkKey seen (first :: rest.takeWhile continuesKey) (locate (first :: rest)) with
    | error fault =>
      -- the key was seen, so whatever value follows does not count
      simp only [hcheck, reduceCtorEq, false_iff, Decidable.not_not] at hseen
      cases readValue (fun _ => 0) text with
      | error fault => simp [Except.map]
      | ok result =>
        simp only [Except.map, Except.ok.injEq, Prod.mk.injEq, RawAttribute.mk.injEq, reduceCtorEq, false_iff]
        intro h
        obtain ⟨⟨⟨rfl, -⟩, -⟩, hnew⟩ := h
        exact hnew hseen
    | ok =>
      simp only [hcheck, true_iff] at hseen
      cases hread : readValue locate text with
      | error fault =>
        cases hplain : readValue (fun _ => 0) text with
        | error fault => simp [Except.map]
        | ok result =>
          rw [(hvalue _).2 hplain] at hread
          cases hread
      | ok result =>
        rw [(hvalue _).1 hread]
        simp only [Except.map, Except.ok.injEq, Prod.mk.injEq, RawAttribute.mk.injEq]
        constructor
        · intro h
          obtain ⟨⟨rfl, rfl⟩, rfl⟩ := h
          exact ⟨⟨⟨rfl, rfl⟩, rfl⟩, hseen⟩
        · exact fun h => h.1
  · simp

theorem length_skipSpace_le (text : List Char) : (skipSpace text).length ≤ text.length :=
  (List.dropWhile_suffix _).length_le

/-- The attributes in a text as they are written, if it can be cut into attributes. -/
def splitAttributes (text : List Char) : Option (List RawAttribute) :=
  match htext : skipSpace text with
  | [] => some []
  | first :: rest =>
    match hread : readAttribute (fun _ => 0) [] first rest with
    | .error _ => none
    | .ok (raw, after) =>
      have : after.length < text.length := by
        have := length_skipSpace_le text
        have := length_of_readAttribute hread
        rw [htext, List.length_cons] at *
        omega
      (splitAttributes after).map fun raws => raw :: raws
termination_by text.length

theorem splitAttributes_of_nil {text : List Char} (h : skipSpace text = []) : splitAttributes text = some [] := by
  rw [splitAttributes]
  split
  · rfl
  · simp_all

theorem splitAttributes_of_error {text rest : List Char} {first : Char} {fault : AttributeFault}
    (h : skipSpace text = first :: rest) (hread : readAttribute (fun _ => 0) [] first rest = .error fault) :
    splitAttributes text = none := by
  rw [splitAttributes]
  split
  · simp_all
  · rename_i heq
    rw [h] at heq
    cases heq
    split <;> simp_all

theorem splitAttributes_of_ok {text rest after : List Char} {first : Char} {raw : RawAttribute}
    (h : skipSpace text = first :: rest) (hread : readAttribute (fun _ => 0) [] first rest = .ok (raw, after)) :
    splitAttributes text = (splitAttributes after).map fun raws => raw :: raws := by
  rw [splitAttributes]
  split
  · simp_all
  · rename_i heq
    rw [h] at heq
    cases heq
    split <;> simp_all

/-- What it takes to read the attributes in a text after some others, and what they come to. -/
theorem readAttributes_eq_ok_iff {locate : List Char → Nat} {seen : SeenKeys} {attributes d : Dictionary}
    {text : List Char} :
    readAttributes locate seen attributes text = .ok d ↔
      ∃ raws entries, splitAttributes text = some raws ∧
        (∀ raw ∈ raws, raw.key ∉ seen.map Prod.fst) ∧ (raws.map RawAttribute.key).Nodup ∧
        raws.mapM RawAttribute.decode? = some entries ∧
        d = entries.foldl (fun d e => d.insert e.1 e.2) attributes := by
  fun_induction readAttributes locate seen attributes text generalizing d with
  | case1 seen attributes text htext =>
    rw [splitAttributes_of_nil htext]
    simp [eq_comm]
  | case2 seen attributes text first rest htext fault hread =>
    simp only [reduceCtorEq, false_iff]
    intro h
    obtain ⟨raws, entries, hsplit, hseen, -⟩ := h
    cases hplain : readAttribute (fun _ => 0) [] first rest with
    | error fault =>
      rw [splitAttributes_of_error htext hplain] at hsplit
      cases hsplit
    | ok result =>
      obtain ⟨raw, after⟩ := result
      rw [splitAttributes_of_ok htext hplain] at hsplit
      obtain ⟨others, -, rfl⟩ := Option.map_eq_some_iff.1 hsplit
      have hnew := hseen raw List.mem_cons_self
      rw [readAttribute_eq_ok_iff.2 ⟨hplain, hnew⟩] at hread
      cases hread
  | case3 seen attributes text first rest htext raw after hread key fault =>
    rename_i hvalue
    obtain ⟨hplain, -⟩ := readAttribute_eq_ok_iff.1 hread
    rw [splitAttributes_of_ok htext hplain]
    simp only [reduceCtorEq, false_iff]
    intro h
    obtain ⟨raws, entries, hsplit, -, -, hentries, -⟩ := h
    obtain ⟨others, -, rfl⟩ := Option.map_eq_some_iff.1 hsplit
    simp [RawAttribute.decode?, hvalue] at hentries
  | case4 seen attributes text first rest htext raw after hread key value hvalue hlength =>
    rename_i ih
    obtain ⟨hplain, hnew⟩ := readAttribute_eq_ok_iff.1 hread
    have hentry : raw.decode? = some (String.ofList raw.key, String.ofList value) := by
      simp only [RawAttribute.decode?, hvalue]
    rw [ih, splitAttributes_of_ok htext hplain]
    constructor
    · intro h
      obtain ⟨raws, entries, hsplit, hseen, hnodup, hentries, rfl⟩ := h
      refine ⟨raw :: raws, (String.ofList raw.key, String.ofList value) :: entries, by rw [hsplit]; rfl,
        ?_, ?_, ?_, rfl⟩
      · intro other hmem
        rcases List.mem_cons.1 hmem with rfl | hmem
        · exact hnew
        · exact fun h => hseen other hmem (List.mem_cons_of_mem _ h)
      · refine List.nodup_cons.2 ⟨fun h => ?_, hnodup⟩
        obtain ⟨other, hmem, hkey⟩ := List.mem_map.1 h
        exact hseen other hmem (by rw [hkey]; exact List.mem_cons_self)
      · simp [hentry, hentries]
    · intro h
      obtain ⟨all, entries, hsplit, hseen, hnodup, hentries, rfl⟩ := h
      obtain ⟨raws, hraws, rfl⟩ := Option.map_eq_some_iff.1 hsplit
      obtain ⟨hfirst, hnodup⟩ := List.nodup_cons.1 hnodup
      simp only [List.mapM_cons, hentry, Option.pure_def, Option.bind_eq_bind, Option.bind_some,
        Option.bind_eq_some_iff, Option.some.injEq] at hentries
      obtain ⟨others, hothers, rfl⟩ := hentries
      refine ⟨raws, others, hraws, ?_, hnodup, hothers, rfl⟩
      intro other hmem h
      rcases List.mem_cons.1 h with hkey | h
      · exact hfirst (List.mem_map.2 ⟨other, hmem, hkey⟩)
      · exact hseen other (List.mem_cons_of_mem _ hmem) h

/-- The attributes of a tag can be read if its text can be cut into attributes, no two of which have one key, and the
value of each can be expanded. -/
theorem Tag.readAttributes_eq_ok_iff {tag : Tag} {d : Dictionary} :
    tag.readAttributes = .ok d ↔
      ∃ raws entries, splitAttributes tag.attributes = some raws ∧ (raws.map RawAttribute.key).Nodup ∧
        raws.mapM RawAttribute.decode? = some entries ∧ d = Dictionary.ofList entries := by
  simp [Tag.readAttributes, Markup.readAttributes_eq_ok_iff, Dictionary.ofList]

/-- A tag with nothing behind its name has no attributes. -/
theorem Tag.readAttributes_of_nil (name : List Char) : (⟨name, []⟩ : Tag).readAttributes = .ok Dictionary.empty :=
  Tag.readAttributes_eq_ok_iff.2 ⟨[], [], splitAttributes_of_nil rfl, List.nodup_nil, rfl, rfl⟩

end Markup

end SvgPlot
