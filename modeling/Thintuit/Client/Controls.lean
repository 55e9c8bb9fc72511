import Thintuit.Server.Reference
import Thintuit.Server.SingleRequest

/-! The checkboxes that `renderControls` of `visualization/index.html` builds from the rows of the
answer, and what `document.getElementById` finds of them. The names of models and categories
are pasted into the markup as they are. -/
namespace Thintuit.Client
open Server

/-! The values whose first index is their own: `filter((v, i, a) => a.indexOf(v) === i && keep(v))`. -/

section FirstOccurrences
variable {α : Type} [BEq α] (keep : α → Bool) (xs : List α)

def firstOccurrences : List α := (xs.zipIdx.filter (fun x => xs.idxOf x.1 = x.2 && keep x.1)).map Prod.fst

theorem mem_firstOccurrences_iff [LawfulBEq α] (a : α) : a ∈ firstOccurrences keep xs ↔ a ∈ xs ∧ keep a = true := by
  simp only [firstOccurrences,List.mem_map,List.mem_filter,Bool.and_eq_true,decide_eq_true_eq,Prod.exists,
    List.mk_mem_zipIdx_iff_getElem?]
  constructor
  · rintro ⟨_,i,⟨hget,-,hkeep⟩,rfl⟩
    exact ⟨List.mem_of_getElem? hget,hkeep⟩
  · rintro ⟨hmem,hkeep⟩
    exact ⟨a,xs.idxOf a,⟨List.getElem?_idxOf hmem,rfl,hkeep⟩,rfl⟩

theorem firstOccurrences_pairwise : (firstOccurrences keep xs).Pairwise (fun a b => xs.idxOf a < xs.idxOf b) := by
  have hindices : xs.zipIdx.Pairwise (fun x y => x.2 < y.2) := by
    rw [← List.pairwise_map (f := Prod.snd),List.zipIdx_map_snd]
    exact List.pairwise_lt_range'
  rw [firstOccurrences,List.pairwise_map]
  apply (hindices.filter _).imp_of_mem
  intro x y hx hy hlt
  simp only [List.mem_filter,Bool.and_eq_true,decide_eq_true_eq] at hx hy
  rwa [hx.2.1,hy.2.1]

theorem nodup_firstOccurrences : (firstOccurrences keep xs).Nodup := by
  apply (firstOccurrences_pairwise keep xs).imp
  rintro a b hlt rfl
  exact lt_irrefl _ hlt

/-- The first value with a property is its own first occurrence. -/
theorem find_firstOccurrences [LawfulBEq α] (p : α → Bool) :
    (firstOccurrences (fun _ => true) xs).find? p = xs.find? p := by
  cases h : xs.find? p with
  | none =>
    rw [List.find?_eq_none] at h ⊢
    intro a ha
    exact h a ((mem_firstOccurrences_iff _ xs a).mp ha).1
  | some a =>
    obtain ⟨hpa,as,bs,rfl,has⟩ := List.find?_eq_some_iff_append.mp h
    have ha : a ∈ firstOccurrences (fun _ => true) (as ++ a :: bs) :=
      (mem_firstOccurrences_iff _ _ a).mpr ⟨by simp,rfl⟩
    obtain ⟨b,hb⟩ := Option.isSome_iff_exists.mp (List.find?_isSome.mpr ⟨a,ha,hpa⟩)
    obtain ⟨hpb,as',bs',hsplit,has'⟩ := List.find?_eq_some_iff_append.mp hb
    rw [hb]
    rw [hsplit,List.mem_append,List.mem_cons] at ha
    rcases ha with ha | rfl | ha
    · exact absurd hpa (by simpa using has' a ha)
    · rfl
    · -- one that comes earlier would have been found in the list itself
      have hlt : (as ++ a :: bs).idxOf b < (as ++ a :: bs).idxOf a := by
        have hpairs := firstOccurrences_pairwise (fun _ => true) (as ++ a :: bs)
        rw [hsplit,List.pairwise_append,List.pairwise_cons] at hpairs
        exact hpairs.2.1.1 a ha
      have hlen : (as ++ a :: bs).idxOf a ≤ as.length := by
        refine (List.idxOf_append ..).trans_le ?_
        split
        · exact List.idxOf_le_length
        · rw [List.idxOf_cons_self,Nat.zero_add]
      have hbas : b ∈ as := by
        by_contra hno
        rw [List.idxOf_append_of_notMem hno] at hlt
        omega
      exact absurd hpb (by simpa using has b hbas)

end FirstOccurrences

/-! The rows and the checkboxes. -/

/-- A row of the answer, as far as the script reads it; `null` is `none`. -/
structure ChartRow where
  modelId : Option PyStr
  correctCategory : Option PyStr
  accuracyPercent : Rat
  deriving DecidableEq

/-- The states of the checkboxes. -/
structure Setting where
  models : Option PyStr → Bool
  categories : Option PyStr → Bool

/-- An element with an id. Only a checkbox has `checked`. -/
structure Element where
  id : PyStr
  checked : Option Bool
  deriving DecidableEq

/-- A template string prints `null` as text. -/
def templateText (x : Option PyStr) : PyStr := x.getD (py "null")

def modelBox (model : Option PyStr) : PyStr := py "model-" ++ templateText model
def categoryBox (cat : Option PyStr) : PyStr := py "cat-" ++ templateText cat

/-! The markup. -/

/-- The HTML parser of a browser: what is left of the text of an attribute once its character
references are read, and the elements with an id in a list of controls where a name is read as
markup, of which nothing is assumed. -/
structure Html where
  references : PyStr → PyStr
  otherwise : (front : PyStr) → List (Option PyStr) → (Option PyStr → Bool) → List Element
  references_of_plain : ∀ {s}, 38 ∉ s → references s = s

/-- Text that cannot open a tag or give an attribute, and that stays the same when the list is read
and written again for the next control. -/
def inert (text : PyStr) : Bool := text.all (fun c => !([0,13,60,61].contains c)) && !decide (py "&#" <:+: text)

/-- The value of an attribute, which ends at the first quote. -/
def Html.attribute (html : Html) (text : PyStr) : PyStr := html.references (text.takeWhile (· ≠ 34))

/-- The elements with an id in a list of controls. -/
def controls (html : Html) (front : PyStr) (names : List (Option PyStr)) (checked : Option PyStr → Bool) : List Element :=
  if names.all (fun x => inert (templateText x)) then
    names.map (fun x => ⟨html.attribute (front ++ templateText x),some (checked x)⟩)
  else html.otherwise front names checked

/-- The elements with an id, in document order, once `renderControls` has filled the two lists. -/
def elements (html : Html) (raw : List ChartRow) (setting : Setting) : List Element :=
  ⟨py "model-filters",none⟩ ::
    controls html (py "model-") (firstOccurrences (fun _ => true) (raw.map ChartRow.modelId)) setting.models ++
  ⟨py "category-filters",none⟩ ::
    controls html (py "cat-") (firstOccurrences (fun _ => true) (raw.map ChartRow.correctCategory)) setting.categories ++
  [⟨py "chart-types",none⟩,⟨py "chart-container",none⟩]

def getElementById (html : Html) (raw : List ChartRow) (setting : Setting) (id : PyStr) : Option Element :=
  (elements html raw setting).find? (fun e => e.id = id)

/-- `document.getElementById(id)?.checked` as a condition. -/
def isChecked (html : Html) (raw : List ChartRow) (setting : Setting) (id : PyStr) : Bool :=
  ((getElementById html raw setting id).bind Element.checked).getD false

/-- A name that stands for itself wherever it is pasted. -/
def literalName (x : Option PyStr) : Bool := (templateText x).all (fun c => !([0,13,34,38,60,61].contains c))

theorem not_mem_literalName {x : Option PyStr} (h : literalName x = true) {c : CodePoint} (hc : c ∈ [0,13,34,38,60,61]) :
    c ∉ templateText x := by
  intro hmem
  have hnot := List.all_eq_true.mp h c hmem
  simp only [List.contains_iff_mem.mpr hc] at hnot
  cases hnot

theorem inert_of_literalName {x : Option PyStr} (h : literalName x = true) : inert (templateText x) = true := by
  rw [inert,Bool.and_eq_true]
  constructor
  · refine List.all_eq_true.mpr (fun c hc => ?_)
    have hsub : ∀ c : CodePoint, c ∈ [0,13,60,61] → c ∈ [0,13,34,38,60,61] := by simp
    rw [Bool.not_eq_true',← Bool.not_eq_true,List.contains_iff_mem]
    exact fun hmem => not_mem_literalName h (hsub c hmem) hc
  · rw [Bool.not_eq_true',decide_eq_false_iff_not]
    exact fun hin => not_mem_literalName h (c := 38) (by decide) (hin.subset (by decide))

theorem attribute_of_literalName (html : Html) {front : PyStr} (hquote : 34 ∉ front) (hamp : 38 ∉ front) {x : Option PyStr}
    (h : literalName x = true) : html.attribute (front ++ templateText x) = front ++ templateText x := by
  have hquote' : 34 ∉ front ++ templateText x := List.not_mem_append hquote (not_mem_literalName h (by decide))
  have hamp' : 38 ∉ front ++ templateText x := List.not_mem_append hamp (not_mem_literalName h (by decide))
  have htake : (front ++ templateText x).takeWhile (· ≠ 34) = front ++ templateText x :=
    List.takeWhile_eq_self_iff.mpr (fun c hc => decide_eq_true (fun hc34 => hquote' (hc34 ▸ hc)))
  rw [Html.attribute,htake,html.references_of_plain hamp']

/-- Literal names give the ids that are looked for. -/
theorem controls_of_literalNames (html : Html) {front : PyStr} (hquote : 34 ∉ front) (hamp : 38 ∉ front)
    {names : List (Option PyStr)} (h : ∀ x ∈ names, literalName x = true) (checked : Option PyStr → Bool) :
    controls html front names checked = names.map (fun x => ⟨front ++ templateText x,some (checked x)⟩) := by
  have hinert : names.all (fun x => inert (templateText x)) = true :=
    List.all_eq_true.mpr (fun x hx => inert_of_literalName (h x hx))
  rw [controls,if_pos hinert]
  exact List.map_congr_left (fun x hx => by rw [attribute_of_literalName html hquote hamp (h x hx)])

/-- All names in the rows stand for themselves. -/
def LiteralNames (raw : List ChartRow) : Prop :=
  ∀ row ∈ raw, literalName row.modelId = true ∧ literalName row.correctCategory = true

theorem elements_of_literalNames (html : Html) {raw : List ChartRow} (h : LiteralNames raw) (setting : Setting) :
    elements html raw setting = ⟨py "model-filters",none⟩ ::
      (firstOccurrences (fun _ => true) (raw.map ChartRow.modelId)).map (fun m => ⟨modelBox m,some (setting.models m)⟩) ++
    ⟨py "category-filters",none⟩ ::
      (firstOccurrences (fun _ => true) (raw.map ChartRow.correctCategory)).map
        (fun c => ⟨categoryBox c,some (setting.categories c)⟩) ++
    [⟨py "chart-types",none⟩,⟨py "chart-container",none⟩] := by
  have hnames : ∀ {column : ChartRow → Option PyStr}, (∀ row ∈ raw, literalName (column row) = true) →
      ∀ x ∈ firstOccurrences (fun _ => true) (raw.map column), literalName x = true := by
    intro column hcolumn x hx
    obtain ⟨row,hrow,rfl⟩ := List.mem_map.mp ((mem_firstOccurrences_iff _ _ x).mp hx).1
    exact hcolumn row hrow
  rw [elements,controls_of_literalNames html (by decide) (by decide) (hnames (fun row hrow => (h row hrow).1)),
    controls_of_literalNames html (by decide) (by decide) (hnames (fun row hrow => (h row hrow).2))]
  rfl

/-- A browser that knows no character reference, and no markup. -/
def plainHtml : Html := ⟨fun s => s,fun _ _ _ => [],fun _ => rfl⟩

/-! Looking up the boxes. -/

/-- The first of the values that print alike. -/
def namesake (xs : List (Option PyStr)) (x : Option PyStr) : Option (Option PyStr) :=
  xs.find? (fun y => templateText y = templateText x)

theorem namesake_eq_some {xs : List (Option PyStr)} {x y : Option PyStr} (h : namesake xs x = some y) :
    y ∈ xs ∧ templateText y = templateText x :=
  ⟨List.mem_of_find?_eq_some h,by simpa using List.find?_some h⟩

theorem find_namesake {xs : List (Option PyStr)} {x : Option PyStr} (hx : x ∈ xs)
    (halone : ∀ y ∈ xs, templateText y = templateText x → y = x) : namesake xs x = some x := by
  have hsome : (namesake xs x).isSome := List.find?_isSome.mpr ⟨x,hx,decide_eq_true rfl⟩
  obtain ⟨y,hy⟩ := Option.isSome_iff_exists.mp hsome
  obtain ⟨hmem,hsame⟩ := namesake_eq_some hy
  rw [hy,halone y hmem hsame]

private theorem find_boxes (xs : List (Option PyStr)) (front : PyStr) (checked : Option PyStr → Bool) (x : Option PyStr) :
    ((firstOccurrences (fun _ => true) xs).map (fun y => (⟨front ++ templateText y,some (checked y)⟩ : Element))).find?
        (fun e => e.id = front ++ templateText x) =
      (namesake xs x).map (fun y => ⟨front ++ templateText y,some (checked y)⟩) := by
  have hid : (fun e : Element => decide (e.id = front ++ templateText x)) ∘
      (fun y => (⟨front ++ templateText y,some (checked y)⟩ : Element)) = fun y => decide (templateText y = templateText x) := by
    funext y
    simp
  rw [List.find?_map,hid,find_firstOccurrences,namesake]

/-- A model's id finds the box of the first model that prints alike, or the list of models. -/
theorem getElementById_modelBox (html : Html) {raw : List ChartRow} (hnames : LiteralNames raw) (setting : Setting) (m : Option PyStr) :
    getElementById html raw setting (modelBox m) =
      if templateText m = py "filters" then some ⟨py "model-filters",none⟩
      else (namesake (raw.map ChartRow.modelId) m).map (fun x => ⟨modelBox x,some (setting.models x)⟩) := by
  have hlist : (py "model-filters" = modelBox m) ↔ templateText m = py "filters" := by
    have hsplit : py "model-filters" = py "model-" ++ py "filters" := by decide
    rw [hsplit,modelBox,List.append_cancel_left_eq,eq_comm]
  have hother : ∀ id : PyStr, id.head? = some 99 → id ≠ modelBox m := by
    rintro id hhead rfl
    exact absurd hhead (by decide : some (109 : CodePoint) ≠ some 99)
  rw [getElementById,elements_of_literalNames html hnames,List.append_assoc,List.cons_append,List.find?_cons]
  simp only [hlist]
  split
  · rename_i h
    rw [if_pos (of_decide_eq_true h)]
  · rename_i h
    have hrest : ∀ e ∈ (⟨py "category-filters",none⟩ : Element) ::
        (firstOccurrences (fun _ => true) (raw.map ChartRow.correctCategory)).map
          (fun c => (⟨categoryBox c,some (setting.categories c)⟩ : Element)) ++
        [⟨py "chart-types",none⟩,⟨py "chart-container",none⟩], e.id.head? = some 99 := by
      intro e he
      simp only [List.mem_append,List.mem_cons,List.mem_map,List.not_mem_nil,or_false] at he
      rcases he with (rfl | ⟨c,-,rfl⟩) | rfl | rfl <;> rfl
    have hnone := List.find?_eq_none.mpr (fun e he hid => hother e.id (hrest e he) (of_decide_eq_true hid))
    rw [if_neg (of_decide_eq_false h),List.find?_append,hnone,Option.or_none]
    exact find_boxes (raw.map ChartRow.modelId) (py "model-") setting.models m

theorem getElementById_categoryBox (html : Html) {raw : List ChartRow} (hnames : LiteralNames raw) (setting : Setting)
    (c : Option PyStr) : getElementById html raw setting (categoryBox c) =
      (namesake (raw.map ChartRow.correctCategory) c).map (fun x => ⟨categoryBox x,some (setting.categories x)⟩) := by
  have hmodel : ∀ m, modelBox m ≠ categoryBox c := by
    intro m hsame
    have hhead : some 109 = some (99 : CodePoint) := congrArg List.head? hsame
    exact absurd hhead (by decide)
  -- the other ids with the letters `cat` or `c` differ at the fourth character
  have hother : ∀ id : PyStr, id[3]? ≠ some 45 → id ≠ categoryBox c := by
    rintro id hfourth rfl
    exact hfourth rfl
  have hfront : ∀ e ∈ (⟨py "model-filters",none⟩ : Element) ::
      (firstOccurrences (fun _ => true) (raw.map ChartRow.modelId)).map
        (fun m => (⟨modelBox m,some (setting.models m)⟩ : Element)), ¬ (decide (e.id = categoryBox c) = true) := by
    intro e he hid
    rcases List.mem_cons.mp he with rfl | he
    · exact hmodel (some (py "filters")) (of_decide_eq_true hid)
    · obtain ⟨m,-,rfl⟩ := List.mem_map.mp he
      exact hmodel m (of_decide_eq_true hid)
  have hback : ∀ e ∈ [(⟨py "chart-types",none⟩ : Element),⟨py "chart-container",none⟩],
      ¬ (decide (e.id = categoryBox c) = true) := by
    intro e he hid
    simp only [List.mem_cons,List.not_mem_nil,or_false] at he
    rcases he with rfl | rfl
    · exact hother _ (by decide) (of_decide_eq_true hid)
    · exact hother _ (by decide) (of_decide_eq_true hid)
  have hlist : ¬ (decide (py "category-filters" = categoryBox c) = true) := by
    rw [decide_eq_true_eq]
    exact hother _ (by decide)
  rw [getElementById,elements_of_literalNames html hnames,List.append_assoc,List.find?_append,List.find?_eq_none.mpr hfront,Option.none_or,
    List.cons_append,List.find?_cons_of_neg,List.find?_append,List.find?_eq_none.mpr hback,Option.or_none]
  · exact find_boxes (raw.map ChartRow.correctCategory) (py "cat-") setting.categories c
  · exact hlist

end Thintuit.Client
