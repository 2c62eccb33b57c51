import Mathlib.Data.List.Basic
import SvgPlot.Proofs.Conservation

/-!
# Input that is not read

A compilation does not read all of an element. `Element.pruned` is what is left when all that is not read is taken away:

* attributes that the rule of a shape does not name, and all attributes of elements that are not drawn;
* the content of all but styles and texts;
* the children of elements that come to no mark. Of definitions, the styles in them are kept.

Opening an element looks at nothing else (`openElement_pruned`), and so neither does a compilation
(`Session.compileElement_pruned`): not even the failure at a depth limit can tell the two apart.
-/

namespace SvgPlot

open Markup (Element PlainText)

/-! ## Dictionaries with fewer keys -/

namespace Dictionary

/-- The entries of some keys. -/
def restrict (d : Dictionary) (keys : List String) : Dictionary :=
  ⟨d.entries.filter fun entry => entry.1 ∈ keys, d.sorted.filter _⟩

theorem lookup_filter (key : String) (keys : List String) (entries : List (String × String)) :
    lookup key (entries.filter fun entry => entry.1 ∈ keys) = if key ∈ keys then lookup key entries else none := by
  induction entries with
  | nil => simp [lookup]
  | cons head rest ih =>
    obtain ⟨k, v⟩ := head
    rw [List.filter_cons]
    by_cases hsame : k = key
    · subst hsame
      by_cases hkey : k ∈ keys
      · simp [hkey, lookup]
      · simpa [hkey] using ih
    · have hskip : lookup key ((k, v) :: rest) = lookup key rest := by rw [lookup, if_neg hsame]
      rw [hskip, ← ih]
      split
      · rw [lookup, if_neg hsame]
      · rfl

@[simp] theorem get?_restrict (d : Dictionary) (keys : List String) (key : String) :
    (d.restrict keys).get? key = if key ∈ keys then d.get? key else none :=
  lookup_filter ..

end Dictionary

/-! ## What is read of an element -/

namespace Shape

/-- The attributes that the text of a mark may come from. -/
def Payload.keys : Payload → List String
  | .firstOf keys => keys
  | .none | .content => []

/-- All attributes that a rule names. -/
def Rule.keys (rule : Rule) : List String := rule.required ++ rule.measures.map Measure.key ++ rule.payload.keys

theorem name_of_payload {shape : Shape} (h : shape.rule.payload = .content) :
    shape.name = "text" ∨ shape.name = "tspan" := by
  cases shape <;> cases h
  · exact .inl rfl
  · exact .inr rfl

end Shape

namespace Markup.Element

/-- The attributes that are read of an element with this name. -/
def keysRead (name : String) : List String :=
  match Role.ofName name with
  | .drawn shape => shape.rule.keys
  | .style | .metadata | .definitions | .unknown => []

/-- The element with only what is read of it, and with these children. -/
def trim (e : Element) (children : List Element) : Element :=
  ⟨e.name, e.attributes.restrict (keysRead e.name), if e.name ∈ ["style", "text", "tspan"] then e.content else [],
    children⟩

@[simp] theorem name_trim (e : Element) (children : List Element) : (e.trim children).name = e.name := rfl

@[simp] theorem children_trim (e : Element) (children : List Element) : (e.trim children).children = children := rfl

mutual

/-- The element without all that is not read, at every depth. -/
def pruned : Element → Element
  | ⟨name, attributes, content, children⟩ =>
    let e : Element := ⟨name, attributes, content, children⟩
    e.trim <|
      match Role.ofName name with
      | .style | .metadata | .unknown => []
      | .definitions => e.outerStyles.map fun style => style.trim []
      | .drawn shape => if shape.accepts e then prunedAll children else []

def prunedAll : List Element → List Element
  | [] => []
  | e :: rest => e.pruned :: prunedAll rest

end

end Markup.Element

/-! ## Opening trimmed elements -/

section

variable {canvas : Canvas} {shape : Shape} {e : Element}

theorem get?_trim (hrole : Role.ofName e.name = .drawn shape) {key : String} (hkey : key ∈ shape.rule.keys)
    (children : List Element) : (e.trim children).attributes.get? key = e.attributes.get? key := by
  rw [Element.trim, Element.keysRead, hrole, Dictionary.get?_restrict, if_pos hkey]

theorem content_trim (h : e.name ∈ ["style", "text", "tspan"]) (children : List Element) :
    (e.trim children).content = e.content := if_pos h

/-- Measures are read from their attributes. -/
theorem readMeasures_congr {other : Element} (hname : other.name = e.name) {measures : List Shape.Measure}
    (h : ∀ m ∈ measures, other.attributes.get? m.key = e.attributes.get? m.key) :
    readMeasures canvas other measures = readMeasures canvas e measures := by
  induction measures with
  | nil => rfl
  | cons m rest ih =>
    obtain ⟨hfirst, hrest⟩ := List.forall_mem_cons.1 h
    simp only [readMeasures, hfirst, hname, ih hrest]

theorem readPayload_trim (hrole : Role.ofName e.name = .drawn shape) (children : List Element) :
    readPayload (e.trim children) shape.rule.payload = readPayload e shape.rule.payload := by
  cases hpayload : shape.rule.payload with
  | none => rfl
  | firstOf keys =>
    have hvalues : keys.map (e.trim children).attributes.get? = keys.map e.attributes.get? := by
      refine List.map_congr_left fun key hkey => ?_
      exact get?_trim hrole (by simp [Shape.Rule.keys, hpayload, Shape.Payload.keys, hkey]) children
    have hfirst (d : Dictionary) : keys.findSome? d.get? = (keys.map d.get?).findSome? id := by
      rw [List.findSome?_map, Function.id_comp]
    simp only [readPayload, hfirst, hvalues]
  | content =>
    -- only texts are drawn with their content, and these keep it
    have hname := Shape.name_of_payload hpayload
    rw [Role.name_of_ofName hrole] at hname
    have hcontent := content_trim (e := e) (by simp [hname]) children
    simp only [readPayload, hcontent]

theorem markOf_trim (hrole : Role.ofName e.name = .drawn shape) (children : List Element) :
    shape.markOf canvas (e.trim children) = shape.markOf canvas e := by
  have hmissing : shape.rule.missing (e.trim children).attributes.contains =
      shape.rule.missing e.attributes.contains := by
    refine List.filter_congr fun key hkey => ?_
    rw [Dictionary.contains, Dictionary.contains, get?_trim hrole (by simp [Shape.Rule.keys, hkey])]
  have hmeasures : readMeasures canvas (e.trim children) shape.rule.measures =
      readMeasures canvas e shape.rule.measures := by
    refine readMeasures_congr (e.name_trim children) fun m hm => ?_
    have hkey : m.key ∈ shape.rule.measures.map Shape.Measure.key := List.mem_map_of_mem hm
    exact get?_trim hrole (by simp [Shape.Rule.keys, hkey]) children
  simp only [Shape.markOf, hmissing, hmeasures, readPayload_trim hrole]
  rfl

/-- Opening an element that holds no definitions reads nothing else, and none of its children. -/
theorem openElement_trim (h : Role.ofName e.name ≠ .definitions) (children : List Element) :
    openElement canvas (e.trim children) = openElement canvas e := by
  rw [openElement, openElement, Element.name_trim]
  cases hrole : Role.ofName e.name with
  | style =>
    have hstyle := Role.ofName_eq_style_iff.1 hrole
    simp only [styleNotes, content_trim (e := e) (by simp [hstyle])]
  | metadata => rfl
  | definitions => exact absurd hrole h
  | unknown => rfl
  | drawn shape => simp only [openShape, markOf_trim hrole, readPayload_trim hrole]

end

/-! ## Trimmed definitions -/

theorem Markup.Element.reachedAll_append (through : Element → Bool) (es rest : List Element) :
    reachedAll through (es ++ rest) = reachedAll through es ++ reachedAll through rest := by
  induction es with
  | nil => rfl
  | cons e es ih => rw [List.cons_append, reachedAll, reachedAll, ih, List.append_assoc]

theorem styleNotes_trim {e : Element} (h : e.name = styleName) : styleNotes (e.trim []) = styleNotes e := by
  rw [styleNotes, styleNotes, content_trim (by rw [h]; decide)]

/-- The styles that are found among pending elements are those that are reached without going into one. -/
theorem pendingStyleNotes_eq_flatMap (pending : List Element) :
    pendingStyleNotes pending =
      ((Element.reachedAll (fun x => x.name != styleName) pending).filter fun x => x.name == styleName).flatMap
        styleNotes := by
  fun_induction pendingStyleNotes pending with
  | case1 => rfl
  | case2 e pending hstyle ih => simp [Element.reachedAll, Element.reached_eq, hstyle, ih]
  | case3 e pending hstyle ih =>
    simp [Element.reachedAll, Element.reached_eq, Element.reachedAll_append, hstyle, ih]

theorem pendingStyleNotes_children (e : Element) :
    pendingStyleNotes e.children = e.outerStyles.flatMap styleNotes := by
  rw [pendingStyleNotes_eq_flatMap, Element.outerStyles, Element.inside_eq]

/-- Of pending styles, nothing but the styles themselves is searched. -/
theorem pendingStyleNotes_of_styles {styles : List Element} (h : ∀ e ∈ styles, e.name = styleName) :
    pendingStyleNotes styles = styles.flatMap styleNotes := by
  induction styles with
  | nil => rw [pendingStyleNotes]; rfl
  | cons e rest ih =>
    obtain ⟨hfirst, hrest⟩ := List.forall_mem_cons.1 h
    rw [pendingStyleNotes, if_pos hfirst, ih hrest, List.flatMap_cons]

theorem name_of_mem_outerStyles {e style : Element} (h : style ∈ e.outerStyles) : style.name = styleName := by
  simpa using (List.mem_filter.1 h).2

theorem pendingStyleNotes_outerStyles (e : Element) :
    pendingStyleNotes (e.outerStyles.map fun style => style.trim []) = pendingStyleNotes e.children := by
  rw [pendingStyleNotes_children, pendingStyleNotes_of_styles, List.flatMap_map]
  · exact List.flatMap_congr fun style hstyle => styleNotes_trim (name_of_mem_outerStyles hstyle)
  · intro style hstyle
    obtain ⟨kept, hkept, rfl⟩ := List.mem_map.1 hstyle
    exact (name_of_mem_outerStyles hkept :)

/-! ## Pruned elements -/

/-- Opening a pruned element comes to the same. -/
theorem openElement_pruned (canvas : Canvas) (e : Element) : openElement canvas e.pruned = openElement canvas e := by
  obtain ⟨name, attributes, content, children⟩ := e
  rw [Element.pruned]
  by_cases hrole : Role.ofName name = .definitions
  · simp only [openElement, Element.name_trim, Element.children_trim, hrole, pendingStyleNotes_outerStyles]
  · exact openElement_trim hrole _

/-- An element that comes to a mark keeps its children, which are pruned themselves. -/
theorem children_pruned {e : Element} (h : e.passes) : e.pruned.children = Element.prunedAll e.children := by
  obtain ⟨name, attributes, content, children⟩ := e
  rw [Element.passes] at h
  rw [Element.pruned, Element.children_trim]
  cases hrole : Role.ofName name with
  | drawn shape =>
    rw [hrole] at h
    exact if_pos h
  | _ =>
    rw [hrole] at h
    cases h

theorem passes_of_mark {canvas : Canvas} {e : Element} {mark : Mark} (h : (openElement canvas e).mark = some mark) :
    e.passes := by
  rw [← opens_eq_passes canvas, opens, h]
  rfl

section

variable (canvas : Canvas) (limit : Nat)

mutual

theorem drawn_pruned : ∀ (e : Element) (depth : Nat), drawn canvas limit depth e.pruned = drawn canvas limit depth e
  | ⟨name, attributes, content, children⟩, depth => by
    rcases Nat.lt_or_ge limit depth with hdeep | hdepth
    · -- too deep to be opened, whatever the element holds
      rw [drawn_of_lt hdeep, drawn_of_lt hdeep]
    · have hopen := openElement_pruned canvas ⟨name, attributes, content, children⟩
      cases hmark : (openElement canvas ⟨name, attributes, content, children⟩).mark with
      | none => rw [drawn_of_none hdepth hmark, drawn_of_none hdepth (by rw [hopen, hmark]), hopen]
      | some mark =>
        have hchildren := drawnAll_pruned children (depth + 1)
        rw [drawn_of_some hdepth hmark, drawn_of_some hdepth (by rw [hopen, hmark]), hopen,
          children_pruned (passes_of_mark hmark), hchildren]

theorem drawnAll_pruned : ∀ (es : List Element) (depth : Nat),
    drawnAll canvas limit depth (Element.prunedAll es) = drawnAll canvas limit depth es
  | [], depth => rfl
  | e :: rest, depth => by
    rw [Element.prunedAll, drawnAll, drawnAll, drawn_pruned e, drawnAll_pruned rest]

end

end

namespace Session

/-- What is not read of an element plays no part: without it, an element comes to the same mark or the same failure, and
the session to the same notes and the same style blocks. -/
theorem compileElement_pruned {σ : Type} [StyleSink σ] (s : Session σ) (e : Element) :
    s.compileElement e.pruned = s.compileElement e := by
  have hopen := openElement_pruned s.scene.canvas e
  simp only [compileElement, hopen]
  cases hmark : (openElement s.scene.canvas e).mark with
  | none => rfl
  | some mark =>
    simp only [convert, runChildren_eq, children_pruned (passes_of_mark hmark), drawnAll_pruned]

/-- The group loses its attribute, the unknown element what it hides, and the definitions all but the style. -/
example :
    let style := (Element.named "style").addText "a"
    let blink := Element.named "blink"
    let definitions := Element.named "defs"
    let group := (Element.named "g").setAttribute "fill" "none"
    let cluttered := (blink.addChild style).setAttribute "x" "1"
    let nested := definitions.addChild ((Element.named "rect").addChild (style.addChild style))
    ((group.addChild cluttered).addChild nested).pruned =
      ((Element.named "g").addChild blink).addChild (definitions.addChild style) := rfl

end Session

end SvgPlot
