import SvgPlot.Dictionary

/-!
# Elements

The tree that markup describes: named elements with attributes, content and children. Content and children are two
lists, so how they were interleaved is not kept. Text next to text is one piece of content.
-/

namespace SvgPlot.Markup

/-- A piece of what stands directly in an element. -/
inductive Content where
  /-- text as it was written, references included -/
  | text (raw : String)
  /-- the inside of a CDATA section -/
  | cdata (raw : String)
deriving Repr, DecidableEq

structure Element where
  name : String
  attributes : Dictionary
  content : List Content
  children : List Element
deriving Inhabited

/-- Text added in front of content that is held newest first; it joins with text that is there. -/
def Content.pushText (raw : String) : List Content → List Content
  | .text before :: rest => .text (before ++ raw) :: rest
  | rest => .text raw :: rest

namespace Element

def named (name : String) : Element := ⟨name, Dictionary.empty, [], []⟩

def setAttribute (e : Element) (key value : String) : Element :=
  { e with attributes := e.attributes.insert key value }

def addText (e : Element) (raw : String) : Element :=
  { e with content := (Content.pushText raw e.content.reverse).reverse }

def addCData (e : Element) (raw : String) : Element :=
  { e with content := e.content ++ [.cdata raw] }

def addContent (e : Element) : Content → Element
  | .text raw => e.addText raw
  | .cdata raw => e.addCData raw

def addChild (e : Element) (child : Element) : Element :=
  { e with children := e.children ++ [child] }

mutual

/-- The number of elements in the tree. -/
def size : Element → Nat
  | ⟨_, _, _, children⟩ => 1 + sizes children

/-- The number of elements in a row of trees. -/
def sizes : List Element → Nat
  | [] => 0
  | e :: rest => e.size + sizes rest

end

theorem size_eq (e : Element) : e.size = 1 + sizes e.children := by
  cases e
  rfl

theorem size_pos (e : Element) : 0 < e.size := by
  rw [size_eq]
  omega

theorem sizes_append (es rest : List Element) : sizes (es ++ rest) = sizes es + sizes rest := by
  induction es with
  | nil => simp only [List.nil_append, sizes, Nat.zero_add]
  | cons e es ih => simp only [List.cons_append, sizes, ih, Nat.add_assoc]

theorem sizes_reverseAux (es rest : List Element) : sizes (es.reverseAux rest) = sizes es + sizes rest := by
  induction es generalizing rest with
  | nil => rw [List.reverseAux, sizes, Nat.zero_add]
  | cons e es ih =>
    rw [List.reverseAux, ih, sizes, sizes]
    omega

/-- Counts the elements of pending trees on from `n`. The children of an element come before what was pending, the last
one first. -/
def countFrom (n : Nat) : (pending : List Element) → Nat
  | [] => n
  | e :: pending => countFrom (n + 1) (e.children.reverseAux pending)
termination_by pending => sizes pending
decreasing_by
  have := size_eq e
  simp only [sizes_reverseAux, sizes]
  omega

/-- The number of elements in the tree, found with a list of what is still to be counted, so that the depth of a tree
costs no call stack. -/
def count (e : Element) : Nat := countFrom 0 [e]

theorem countFrom_eq (n : Nat) (pending : List Element) : countFrom n pending = n + sizes pending := by
  fun_induction countFrom n pending with
  | case1 n => rfl
  | case2 n e pending ih =>
    rw [ih, sizes_reverseAux, sizes, size_eq]
    omega

theorem count_eq_size (e : Element) : e.count = e.size := by
  rw [count, countFrom_eq, sizes, sizes, Nat.zero_add, Nat.add_zero]

mutual

/-- The number of levels of the tree; one for an element without children. -/
def height : Element → Nat
  | ⟨_, _, _, children⟩ => 1 + heights children

/-- The number of levels of the highest of some trees. -/
def heights : List Element → Nat
  | [] => 0
  | e :: rest => max e.height (heights rest)

end

theorem height_eq (e : Element) : e.height = 1 + heights e.children := by
  cases e
  rfl

theorem heights_append (es rest : List Element) : heights (es ++ rest) = max (heights es) (heights rest) := by
  induction es with
  | nil => simp only [List.nil_append, heights, Nat.zero_max]
  | cons e es ih => simp only [List.cons_append, heights, ih, Nat.max_assoc]

mutual

/-- Every element before its children, with its depth below the first, put in front of a list. -/
def rowsOnto (depth : Nat) (tail : List (Nat × Element)) : Element → List (Nat × Element)
  | ⟨name, attributes, content, children⟩ =>
    (depth, ⟨name, attributes, content, children⟩) :: rowsOfAllOnto (depth + 1) tail children

def rowsOfAllOnto (depth : Nat) (tail : List (Nat × Element)) : List Element → List (Nat × Element)
  | [] => tail
  | e :: rest => e.rowsOnto depth (rowsOfAllOnto depth tail rest)

end

/-- The elements of the tree in document order with their depths, the root at depth 0. -/
def rows (e : Element) : List (Nat × Element) := e.rowsOnto 0 []

end Element

end SvgPlot.Markup
