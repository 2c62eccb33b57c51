import Mathlib.Data.List.Chain
import SvgPlot.Proofs.Spelling
import SvgPlot.Proofs.WrittenTokens

/-!
# Canonical markup

`Writes` relates an element to the texts it may be written in: its tag with the attributes in any order, its content,
its children and its closing tag, or one tag that is closed at once if there is nothing inside. `Element.IsWritable`
says which elements keep everything when they are written so. Each text of such an element reads as tokens that spell it
(`exists_spells_of_writes`), and so the element is read back from it.
-/

namespace SvgPlot.Markup

/-! ## Content -/

namespace Content

/-- Content as it is written. -/
def markup : Content → List Char
  | .text raw => raw.toList
  | .cdata raw => '<' :: '!' :: ("[CDATA[".toList ++ (raw.toList ++ "]]>".toList))

def IsText : Content → Prop
  | .text _ => True
  | .cdata _ => False

/-- Text that is there and in which every `&` begins a reference, or a CDATA section that nothing inside ends. -/
def IsWritable : Content → Prop
  | .text raw => raw.toList ≠ [] ∧ IsTextData raw.toList
  | .cdata raw => ¬ "]]>".toList <:+: raw.toList

end Content

/-- No text stands next to another. -/
def TextsApart (content : List Content) : Prop := content.IsChain fun a b => ¬ (a.IsText ∧ b.IsText)

/-- Pieces of text with no text after them come to one text. -/
theorem joined_texts {pieces : List (List Char)} (hpieces : pieces ≠ []) {rest : List Content}
    (hrest : ∀ c ∈ (joined rest).head?, ¬ c.IsText) :
    joined (pieces.map (fun piece => .text (String.ofList piece)) ++ rest) =
      .text (String.ofList pieces.flatten) :: joined rest := by
  induction pieces with
  | nil => exact absurd rfl hpieces
  | cons piece pieces ih =>
    rw [List.map_cons, List.cons_append, joined, List.flatten_cons, String.ofList_append]
    cases pieces with
    | nil =>
      cases hjoined : joined rest with
      | nil => simp [hjoined]
      | cons c others =>
        cases c with
        | text raw => exact absurd trivial (hrest (.text raw) (by rw [hjoined]; rfl))
        | cdata raw => simp [hjoined]
    | cons piece' pieces => rw [ih (by simp)]

/-- Content that does not begin with text is written as markup. -/
theorem isMarkup_content {content : List Content} (h : ∀ c ∈ content.head?, ¬ c.IsText) :
    IsMarkup (content.flatMap Content.markup) := by
  cases content with
  | nil => exact IsMarkup.nil
  | cons c rest =>
    cases c with
    | text raw => exact absurd trivial (h (.text raw) rfl)
    | cdata raw => exact IsMarkup.cons _

/-- Content that is written reads as tokens that spell it. -/
theorem exists_reads_content {content : List Content} (hwritable : ∀ c ∈ content, c.IsWritable)
    (hapart : TextsApart content) :
    ∃ tokens, SpellsContent content tokens ∧
      ∀ names, Reads IsMarkup names (content.flatMap Content.markup) tokens names := by
  induction content with
  | nil => exact ⟨[], ⟨by simp, rfl⟩, fun _ => Reads.nil⟩
  | cons c rest ih =>
    obtain ⟨hfirst, hothers⟩ := List.forall_mem_cons.1 hwritable
    obtain ⟨hnext, hapart⟩ := List.isChain_cons.1 hapart
    obtain ⟨tokens, ⟨hinner, hjoined⟩, hreads⟩ := ih hothers hapart
    cases c with
    | cdata raw =>
      refine ⟨.cdata raw.toList :: tokens, ⟨List.forall_mem_cons.2 ⟨trivial, hinner⟩, ?_⟩, fun names => ?_⟩
      · show .cdata (String.ofList raw.toList) :: joined (tokens.flatMap (·.content?.toList)) = _
        rw [hjoined, String.ofList_toList]
      · exact (reads_cdata hfirst names).append (hreads names) fun _ _ => trivial
    | text raw =>
      have hrest : ∀ c ∈ rest.head?, ¬ c.IsText := fun c hc htext => hnext c hc ⟨trivial, htext⟩
      obtain ⟨texts, pieces, htexts, hpieces, hflatten, hreadsText⟩ := exists_reads_text raw.toList hfirst.2
      have hsome : pieces ≠ [] := by
        intro heq
        subst heq
        exact hfirst.1 hflatten.symm
      refine ⟨texts ++ tokens, ⟨List.forall_mem_append.2 ⟨htexts, hinner⟩, ?_⟩, fun names => ?_⟩
      · rw [List.flatMap_append, hpieces, joined_texts hsome (by rwa [hjoined]), hjoined, hflatten,
          String.ofList_toList]
      · exact (hreadsText names).append (hreads names) fun _ hmore => (isMarkup_content hrest).append hmore

/-! ## Elements -/

mutual

/-- The texts an element may be written in. -/
inductive Writes : Element → List Char → Prop where
  | closedAtOnce {name : String} {attributes : Dictionary} {entries : List (String × String)}
      (horder : entries.Perm attributes.entries) :
      Writes ⟨name, attributes, [], []⟩ ('<' :: (name.toList ++ attributeText entries ++ ['/', '>']))
  | tags {name : String} {attributes : Dictionary} {entries : List (String × String)} {content : List Content}
      {children : List Element} {inner : List Char} (horder : entries.Perm attributes.entries)
      (hchildren : WritesAll children inner) :
      Writes ⟨name, attributes, content, children⟩
        ('<' :: (name.toList ++ attributeText entries ++ ['>']) ++
          (content.flatMap Content.markup ++ (inner ++ '<' :: '/' :: (name.toList ++ ['>']))))

/-- The texts elements in a row may be written in. -/
inductive WritesAll : List Element → List Char → Prop where
  | nil : WritesAll [] []
  | cons {e : Element} {es : List Element} {text more : List Char} (hfirst : Writes e text)
      (hrest : WritesAll es more) : WritesAll (e :: es) (text ++ more)

end

/-- Names and keys are names, and content can be told apart again, here and in every child. -/
inductive Element.IsWritable : Element → Prop where
  | mk {name : String} {attributes : Dictionary} {content : List Content} {children : List Element}
      (hname : IsName name.toList) (hkeys : ∀ entry ∈ attributes.entries, IsName entry.1.toList)
      (hcontent : ∀ c ∈ content, c.IsWritable) (hapart : TextsApart content)
      (hchildren : ∀ child ∈ children, child.IsWritable) : IsWritable ⟨name, attributes, content, children⟩

theorem Writes.exists_cons {e : Element} {text : List Char} (h : Writes e text) : ∃ rest, text = '<' :: rest := by
  cases h with
  | closedAtOnce _ => exact ⟨_, rfl⟩
  | tags _ _ => exact ⟨_, rfl⟩

/-- Elements in a row are written as markup. -/
theorem WritesAll.isMarkup {es : List Element} {text : List Char} (h : WritesAll es text) : IsMarkup text := by
  cases h with
  | nil => exact IsMarkup.nil
  | cons hfirst _ =>
    obtain ⟨rest, rfl⟩ := hfirst.exists_cons
    exact IsMarkup.cons _

mutual

/-- An element that is written reads as tokens that spell it. -/
theorem exists_spells_of_writes : ∀ (e : Element) {text : List Char}, e.IsWritable → Writes e text →
    ∃ tokens, Spells e tokens ∧ ∀ names, Reads Anything names text tokens names
  | ⟨name, attributes, content, children⟩, text, hwritable, hwrites => by
    obtain ⟨hname, hkeys, hcontent, hapart, hchildren⟩ := hwritable
    cases hwrites with
    | @closedAtOnce _ _ entries horder =>
      have hkeys : ∀ entry ∈ entries, IsName entry.1.toList := fun entry h => hkeys entry (horder.mem_iff.1 h)
      have hread := @Tag.readAttributes_attributeText name.toList _ _ horder hkeys
      have hspells := Spells.closedAtOnce hread
      rw [String.ofList_toList] at hspells
      exact ⟨_, hspells, reads_empty hname hkeys⟩
    | @tags _ _ entries _ _ inner horder hinner =>
      have hkeys : ∀ entry ∈ entries, IsName entry.1.toList := fun entry h => hkeys entry (horder.mem_iff.1 h)
      have hread := @Tag.readAttributes_attributeText name.toList _ _ horder hkeys
      obtain ⟨tokens, htokens, hreadsContent⟩ := exists_reads_content hcontent hapart
      obtain ⟨others, hothers, hreadsInner⟩ := exists_spells_of_writesAll children hchildren hinner
      have hspells := Spells.tags hread htokens hothers
      rw [String.ofList_toList] at hspells
      refine ⟨_, hspells, fun names => ?_⟩
      have hend := (hreadsInner (name.toList :: names)).append (reads_closing hname names) fun _ _ => trivial
      have hmarkup : ∀ rest, IsMarkup (inner ++ '<' :: '/' :: (name.toList ++ ['>']) ++ rest) := fun rest => by
        rw [List.append_assoc]
        exact hinner.isMarkup.append (IsMarkup.cons _)
      have hinside := (hreadsContent (name.toList :: names)).append hend fun rest _ => hmarkup rest
      exact (reads_opening hname hkeys names).append hinside fun _ _ => trivial

theorem exists_spells_of_writesAll : ∀ (es : List Element) {text : List Char}, (∀ e ∈ es, e.IsWritable) →
    WritesAll es text → ∃ tokens, SpellsAll es tokens ∧ ∀ names, Reads Anything names text tokens names
  | [], _, _, hwrites => by
    cases hwrites
    exact ⟨[], .nil, fun _ => Reads.nil⟩
  | e :: es, text, hwritable, hwrites => by
    obtain ⟨hfirst, hrest⟩ := List.forall_mem_cons.1 hwritable
    cases hwrites with
    | cons hwritesFirst hwritesRest =>
      obtain ⟨tokens, hspells, hreads⟩ := exists_spells_of_writes e hfirst hwritesFirst
      obtain ⟨others, hspellsAll, hreadsAll⟩ := exists_spells_of_writesAll es hrest hwritesRest
      exact ⟨_, .cons hspells hspellsAll, fun names => (hreads names).append (hreadsAll names) fun _ _ => trivial⟩

end

namespace Element

/-- An element is read back from any text it may be written in, by a reader with room for all its levels. -/
theorem read_of_writes {e : Element} {text : List Char} {limit : Nat} (hwritable : e.IsWritable)
    (hwrites : Writes e text) (hroom : e.height ≤ limit) : Element.read limit (String.ofList text) = .ok e := by
  obtain ⟨tokens, hspells, hreads⟩ := exists_spells_of_writes e hwritable hwrites
  obtain ⟨rest, rfl⟩ := hwrites.exists_cons
  have hreading : Reading.of (withoutMark (String.ofList ('<' :: rest)).toList) = ⟨tokens, none⟩ := by
    have hall := hreads [] [] [] trivial
    rw [List.append_nil, List.append_nil, readTokens, List.reverse_reverse] at hall
    rw [String.toList_ofList]
    exact hall
  refine read_eq_ok_iff.2 ⟨by rw [hreading], ?_⟩
  rw [hreading, ofTokens_eq_grow, ← List.append_nil tokens]
  refine Growth.grow_of_spells e hspells (by simpa using hroom) (fun _ => rfl) ?_
  rw [Growth.growAttached_nil]
  exact Growth.grow_nil_eq_ok_iff.2 ⟨rfl, rfl⟩

/-- Attributes out of order with all that has to be escaped, text before and after a CDATA section, and children written
in both ways. -/
theorem read_of_writes_mixed :
    let e : Element := ⟨"a:b", Dictionary.ofList [("href", "x>y/"), ("k", "1 < 2 & \"3\" > 'z'")],
      [.text "p&lt;>", .cdata "]] >&<", .text "q"],
      [⟨"g", Dictionary.empty, [], []⟩, ⟨"_t", Dictionary.ofList [("k-1", "")], [], []⟩]⟩
    let text := ("<a:b k=\"1 &lt; 2 &amp; &quot;3&quot; &gt; &apos;z&apos;\" href=\"x&gt;y/\">p&lt;>" ++
      "<![CDATA[]] >&<]]>q<g/><_t k-1=\"\"></_t></a:b>").toList
    e.IsWritable ∧ Writes e text ∧ e.height ≤ 2 ∧ Element.read 2 (String.ofList text) = .ok e := by
  intro e text
  have htext : IsTextData "p&lt;>".toList :=
    .plain (by decide) (by decide) (@IsTextData.reference "lt".toList _ (by simp) (.plain (by decide) (by decide) .nil))
  have hmore : IsTextData "q".toList := .plain (by decide) (by decide) .nil
  have hfirst : IsWritable ⟨"g", Dictionary.empty, [], []⟩ := ⟨by decide, by decide, by simp, .nil, by simp⟩
  have hsecond : IsWritable ⟨"_t", Dictionary.ofList [("k-1", "")], [], []⟩ :=
    ⟨by decide, by decide, by simp, .nil, by simp⟩
  have hwritable : e.IsWritable := by
    refine ⟨by decide, by decide, ?_, ?_, ?_⟩
    · refine List.forall_mem_cons.2 ⟨⟨by decide, htext⟩, List.forall_mem_cons.2 ⟨?_, ?_⟩⟩
      · show ¬ "]]>".toList <:+: "]] >&<".toList
        decide +kernel
      · exact List.forall_mem_cons.2 ⟨⟨by decide, hmore⟩, by simp⟩
    · simp [TextsApart, Content.IsText]
    · simp [hfirst, hsecond]
  have hinner : WritesAll e.children "<g/><_t k-1=\"\"></_t>".toList :=
    .cons (@Writes.closedAtOnce _ _ [] .nil) (.cons (@Writes.tags _ _ [("k-1", "")] _ _ _ (by decide) .nil) .nil)
  have hwrites := @Writes.tags e.name e.attributes [("k", "1 < 2 & \"3\" > 'z'"), ("href", "x>y/")] e.content
    e.children _ (by decide) hinner
  have hsame : '<' :: (e.name.toList ++ attributeText [("k", "1 < 2 & \"3\" > 'z'"), ("href", "x>y/")] ++ ['>']) ++
      (e.content.flatMap Content.markup ++
        ("<g/><_t k-1=\"\"></_t>".toList ++ '<' :: '/' :: (e.name.toList ++ ['>']))) = text := by
    decide +kernel
  rw [hsame] at hwrites
  exact ⟨hwritable, hwrites, by decide, read_of_writes hwritable hwrites (by decide)⟩

end Element

end SvgPlot.Markup
