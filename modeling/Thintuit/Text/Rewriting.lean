import Mathlib

/-! Rewriting of a text: its first occurrence of a word, or from left to right every
place where a pattern matches. -/
namespace Thintuit.Text
variable {α : Type}

/-! Texts cut at a character. -/
section Separator
variable {sep : α} {word : List α}

/-- A character that is not in the front comes after it. -/
theorem append_of_not_mem {front a x y : List α} (hsep : sep ∉ front) (h : a ++ sep :: x = front ++ y) :
    ∃ a', a = front ++ a' ∧ y = a' ++ sep :: x := by
  rcases List.append_eq_append_iff.mp h with ⟨u,rfl,hu⟩ | ⟨u,rfl,hu⟩
  · cases u with
    | nil => exact ⟨[],by simp,by simpa using hu.symm⟩
    | cons c u =>
      obtain rfl : sep = c := (List.cons.inj hu).1
      exact absurd (by simp) hsep
  · exact ⟨u,rfl,hu⟩

/-- A character that is not in the back comes before it. -/
theorem append_of_not_mem_right {back a x y : List α} (hsep : sep ∉ back) (h : a ++ sep :: x = y ++ back) :
    ∃ x', x = x' ++ back ∧ y = a ++ sep :: x' := by
  rcases List.append_eq_append_iff.mp h with ⟨u,rfl,hu⟩ | ⟨u,rfl,hu⟩
  · cases u with
    | nil =>
      rw [List.nil_append] at hu
      exact absurd (hu ▸ List.mem_cons_self) hsep
    | cons c u =>
      obtain ⟨rfl,rfl⟩ := List.cons.inj hu
      exact ⟨u,rfl,rfl⟩
  · exact absurd (hu ▸ by simp) hsep

theorem not_prefix_of_head {c d : α} (hhead : word.head? = some c) (hne : c ≠ d) (s : List α) : ¬ word <+: d :: s := by
  rintro ⟨u,hu⟩
  have h := congrArg List.head? hu
  rw [List.head?_append,hhead] at h
  exact hne (Option.some.inj h)

/-- A word is not found in front of the first place of the letter it begins with. -/
theorem infix_append_of_head (hhead : word.head? = some sep) {front : List α} (hsep : sep ∉ front) (s : List α) :
    word <:+: front ++ s ↔ word <:+: s := by
  induction front with
  | nil => rfl
  | cons c cs ih =>
    rw [List.mem_cons,not_or] at hsep
    rw [List.cons_append,List.infix_cons_iff,ih hsep.2]
    exact or_iff_right (not_prefix_of_head hhead hsep.1 _)

/-- Two texts cut at their first separator. -/
theorem append_sep_inj {a b x y : List α} (ha : sep ∉ a) (hb : sep ∉ b) :
    a ++ sep :: x = b ++ sep :: y ↔ a = b ∧ x = y := by
  constructor
  · intro h
    induction a generalizing b with
    | nil =>
      cases b with
      | nil => exact ⟨rfl,(List.cons.inj h).2⟩
      | cons d b =>
        obtain rfl : sep = d := (List.cons.inj h).1
        exact absurd List.mem_cons_self hb
    | cons c a ih =>
      cases b with
      | nil =>
        obtain rfl : c = sep := (List.cons.inj h).1
        exact absurd List.mem_cons_self ha
      | cons d b =>
        obtain ⟨rfl,htail⟩ := List.cons.inj h
        obtain ⟨rfl,rfl⟩ := ih (fun hc => ha (List.mem_cons_of_mem _ hc)) (fun hd => hb (List.mem_cons_of_mem _ hd)) htail
        exact ⟨rfl,rfl⟩
  · rintro ⟨rfl,rfl⟩
    rfl

/-- A word that no part of the front can begin occurs behind it. -/
theorem occurrence_behind {front v s q : List α}
    (hapart : ∀ t, t <:+ front → t ≠ [] → ¬ word <+: t ∧ ¬ t <+: word) (h : front ++ s = v ++ (word ++ q)) :
    ∃ v', v = front ++ v' ∧ s = v' ++ (word ++ q) := by
  induction front generalizing v with
  | nil => exact ⟨v,rfl,h⟩
  | cons c cs ih =>
    cases v with
    | nil =>
      have hboth := hapart (c :: cs) (List.suffix_refl _) (by simp)
      have hword : word <+: (c :: cs) ++ s := h ▸ List.prefix_append word q
      exact absurd (List.prefix_or_prefix_of_prefix hword (List.prefix_append _ s)) (not_or.mpr hboth)
    | cons d v =>
      obtain ⟨rfl,htail⟩ := List.cons.inj h
      obtain ⟨v',rfl,hs⟩ := ih (fun t ht => hapart t (ht.trans (List.suffix_cons c cs))) htail
      exact ⟨v',rfl,hs⟩

/-- A separator stands before or behind a text that does not have it. -/
theorem separator_place {a b x y mid : List α} (hsep : sep ∉ mid) (h : x ++ sep :: y = a ++ (mid ++ b)) :
    (∃ v, a = x ++ sep :: v ∧ y = v ++ (mid ++ b)) ∨ ∃ v, x = a ++ (mid ++ v) ∧ b = v ++ sep :: y := by
  rcases List.append_eq_append_iff.mp h with ⟨u,rfl,hu⟩ | ⟨u,rfl,hu⟩
  · cases u with
    | nil =>
      obtain ⟨v,hv,hb⟩ := append_of_not_mem (a := []) hsep hu
      exact .inr ⟨v,by simpa using hv,hb⟩
    | cons c u =>
      obtain ⟨rfl,rfl⟩ := List.cons.inj hu
      exact .inl ⟨u,rfl,rfl⟩
  · obtain ⟨v,rfl,hb⟩ := append_of_not_mem hsep hu.symm
    exact .inr ⟨v,rfl,hb⟩

end Separator

/-- A text has one first occurrence of a word. -/
theorem first_occurrence_inj {word a a' b b' : List α} (ha : ¬ word <:+: (a ++ word).dropLast)
    (ha' : ¬ word <:+: (a' ++ word).dropLast) (h : a ++ (word ++ b) = a' ++ (word ++ b')) : a = a' ∧ b = b' := by
  have hle : ∀ {a a' b b' : List α}, ¬ word <:+: (a' ++ word).dropLast → a ++ (word ++ b) = a' ++ (word ++ b') →
      a'.length ≤ a.length := by
    intro a a' b b' ha' h
    by_contra hlt
    have hcut : (a' ++ word).dropLast <+: a ++ (word ++ b) := by
      rw [h,← List.append_assoc]
      exact (List.dropLast_prefix _).trans (List.prefix_append _ _)
    have hpre : a ++ word <+: (a' ++ word).dropLast := by
      refine List.prefix_of_prefix_length_le ⟨b,List.append_assoc ..⟩ hcut ?_
      rw [List.length_dropLast,List.length_append,List.length_append]
      omega
    exact ha' ((List.suffix_append a word).isInfix.trans hpre.isInfix)
  obtain ⟨rfl,hrest⟩ := List.append_inj h (le_antisymm (hle ha h.symm) (hle ha' h))
  exact ⟨rfl,List.append_cancel_left hrest⟩

variable [DecidableEq α]

/-- The text with the first occurrence of `word` replaced. -/
def replaceFirst (word rep : List α) : List α → List α
  | [] => if word = [] then rep else []
  | c :: cs => if word <+: c :: cs then rep ++ (c :: cs).drop word.length else c :: replaceFirst word rep cs

section ReplaceFirst
variable {word rep s : List α}

theorem replaceFirst_start (hne : word ≠ []) (s : List α) : replaceFirst word rep (word ++ s) = rep ++ s := by
  obtain ⟨c,cs,rfl⟩ := List.exists_cons_of_ne_nil hne
  rw [List.cons_append,replaceFirst,← List.cons_append,if_pos (List.prefix_append _ _),List.drop_left]

/-- A word that is there has an occurrence with none before it, and that one is replaced. -/
theorem replaceFirst_eq (hne : word ≠ []) (h : word <:+: s) :
    ∃ a b, s = a ++ word ++ b ∧ replaceFirst word rep s = a ++ rep ++ b ∧ ¬ word <:+: (a ++ word).dropLast := by
  induction s with
  | nil => exact absurd (List.infix_nil.mp h) hne
  | cons c cs ih =>
    by_cases hp : word <+: c :: cs
    · obtain ⟨b,hb⟩ := hp
      refine ⟨[],b,by simp [hb],?_,fun hin => ?_⟩
      · rw [← hb,replaceFirst_start hne]
        rfl
      · have hlen := hin.length_le
        have hpos := List.length_pos_of_ne_nil hne
        simp only [List.nil_append,List.length_dropLast] at hlen
        omega
    · obtain ⟨a,b,rfl,hrep,hfirst⟩ := ih ((List.infix_cons_iff.mp h).resolve_left hp)
      refine ⟨c :: a,b,by simp,by rw [replaceFirst,if_neg hp,hrep]; simp,fun hin => ?_⟩
      have hcut : (c :: a ++ word).dropLast = c :: (a ++ word).dropLast :=
        List.dropLast_cons_of_ne_nil (by simp [hne])
      rw [hcut,List.infix_cons_iff] at hin
      rcases hin with hin | hin
      · apply hp
        have hsub : (a ++ word).dropLast <+: a ++ word ++ b :=
          (List.dropLast_prefix _).trans (List.prefix_append _ _)
        exact hin.trans ((List.prefix_cons_inj c).mpr hsub)
      · exact hfirst hin

end ReplaceFirst

/-- A pattern gives what follows its match at the start of a text, if it matches there. -/
abbrev Pattern (α : Type) := List α → Option (List α)

/-- A pattern that never matches the empty text. -/
def Pattern.Proper (m : Pattern α) : Prop := ∀ s r, m s = some r → ∃ w, w ≠ [] ∧ s = w ++ r

/-- Go through a text and replace what matches; `skip` counts what the last match still covers. -/
def scan (m : Pattern α) (rep : List α) : (skip : Nat) → List α → List α
  | _, [] => []
  | k+1, _ :: cs => scan m rep k cs
  | 0, c :: cs =>
    match m (c :: cs) with
    | some r => rep ++ scan m rep (cs.length - r.length) cs
    | none => c :: scan m rep 0 cs

def replaceAll (m : Pattern α) (rep s : List α) : List α := scan m rep 0 s

section ReplaceAll
omit [DecidableEq α]
variable {m : Pattern α} {rep : List α}

private theorem scan_eq_drop (k : Nat) (s : List α) : scan m rep k s = replaceAll m rep (s.drop k) := by
  induction s generalizing k with
  | nil => cases k <;> rfl
  | cons c cs ih =>
    cases k with
    | zero => rfl
    | succ k => exact ih k

@[simp] theorem replaceAll_nil : replaceAll m rep [] = [] := rfl

theorem replaceAll_cons {c : α} {cs : List α} (h : m (c :: cs) = none) :
    replaceAll m rep (c :: cs) = c :: replaceAll m rep cs := by
  rw [replaceAll,scan,h]
  rfl

theorem replaceAll_match (hm : Pattern.Proper m) {s r : List α} (h : m s = some r) :
    replaceAll m rep s = rep ++ replaceAll m rep r := by
  obtain ⟨w,hw,rfl⟩ := hm s r h
  obtain ⟨c,cs,rfl⟩ := List.exists_cons_of_ne_nil hw
  have hdrop : (cs ++ r).drop ((cs ++ r).length - r.length) = r := by
    rw [List.length_append,Nat.add_sub_cancel,List.drop_left]
  rw [List.cons_append] at h ⊢
  rw [replaceAll,scan,h]
  dsimp only
  rw [scan_eq_drop,hdrop]

/-- Induction along the scan: one character where nothing matches, a whole match where one does. -/
theorem scan_induction (hm : Pattern.Proper m) {P : List α → Prop} (nil : P [])
    (skip : ∀ c cs, m (c :: cs) = none → P cs → P (c :: cs)) (step : ∀ s r, m s = some r → P r → P s) (s : List α) :
    P s := by
  induction hn : s.length using Nat.strong_induction_on generalizing s with | _ n ih =>
  subst hn
  cases s with
  | nil => exact nil
  | cons c cs =>
    cases h : m (c :: cs) with
    | none => exact skip c cs h (ih cs.length (by simp) cs rfl)
    | some r =>
      obtain ⟨w,hw,hs⟩ := hm _ _ h
      have hlen : r.length < (c :: cs).length := by
        have hpos := List.length_pos_of_ne_nil hw
        rw [hs,List.length_append]
        omega
      exact step _ r h (ih r.length hlen r rfl)

/-- Text in front that no match begins in stays in front. -/
theorem replaceAll_append (front s : List α) (hfront : ∀ t, t <:+ front → t ≠ [] → m (t ++ s) = none) :
    replaceAll m rep (front ++ s) = front ++ replaceAll m rep s := by
  induction front with
  | nil => rfl
  | cons c cs ih =>
    have hhead := hfront (c :: cs) (List.suffix_refl _) (by simp)
    rw [List.cons_append] at hhead ⊢
    rw [replaceAll_cons hhead,ih (fun t ht => hfront t (ht.trans (List.suffix_cons c cs))),List.cons_append]

theorem replaceAll_of_no_match {s : List α} (h : ∀ t, t <:+ s → m t = none) : replaceAll m rep s = s := by
  have hs : replaceAll m rep (s ++ []) = s ++ replaceAll m rep [] := replaceAll_append s [] (fun t ht _ => (congrArg m (List.append_nil t)).trans (h t ht))
  rw [List.append_nil,replaceAll_nil,List.append_nil] at hs
  exact hs

variable (rep) in
/-- Either nothing matches, or there is a first match and what comes before it stays. -/
theorem replaceAll_cases (hm : Pattern.Proper m) (s : List α) :
    (∀ t, t <:+ s → m t = none) ∨ ∃ a t r, s = a ++ t ∧ m t = some r ∧
      replaceAll m rep s = a ++ (rep ++ replaceAll m rep r) ∧ ∀ u, u <:+ a → u ≠ [] → m (u ++ t) = none := by
  induction s with
  | nil =>
    refine .inl (fun t ht => ?_)
    obtain rfl := List.suffix_nil.mp ht
    cases h : m [] with
    | none => rfl
    | some r =>
      obtain ⟨w,hw,hs⟩ := hm [] r h
      exact absurd (List.append_eq_nil_iff.mp hs.symm).1 hw
  | cons c cs ih =>
    cases h : m (c :: cs) with
    | some r =>
      refine .inr ⟨[],c :: cs,r,rfl,h,replaceAll_match hm h,fun u hu hne => ?_⟩
      exact absurd (List.suffix_nil.mp hu) hne
    | none =>
      rcases ih with hnone | ⟨a,t,r,rfl,hr,hrep,hfirst⟩
      · refine .inl (fun t ht => ?_)
        rcases List.suffix_cons_iff.mp ht with rfl | ht
        · exact h
        · exact hnone t ht
      · refine .inr ⟨c :: a,t,r,rfl,hr,by rw [replaceAll_cons h,hrep]; rfl,fun u hu hne => ?_⟩
        rcases List.suffix_cons_iff.mp hu with rfl | hu
        · exact h
        · exact hfirst u hu hne

/-- A word begins the rewritten text just if it begins the text itself, provided that no part of
it tells a match from what is put in its place. -/
theorem prefix_replaceAll_iff (hm : Pattern.Proper m) {x : List α}
    (hx : ∀ y, y <:+ x → ∀ s r, m s = some r → ∀ t, (y <+: rep ++ t ↔ y <+: s)) (s : List α) :
    x <+: replaceAll m rep s ↔ x <+: s := by
  induction s using scan_induction hm generalizing x with
  | nil => rfl
  | skip c cs h ih =>
    rw [replaceAll_cons h]
    cases x with
    | nil => simp
    | cons d x => rw [List.cons_prefix_cons,List.cons_prefix_cons,ih (fun y hy => hx y (hy.trans (List.suffix_cons d x)))]
  | step s r h ih =>
    rw [replaceAll_match hm h]
    exact hx x (List.suffix_refl x) s r h _

theorem count_replaceAll_eq [BEq α] [LawfulBEq α] (hm : Pattern.Proper m) {a : α}
    (hrep : ∀ w r, m (w ++ r) = some r → rep.count a = w.count a) (s : List α) :
    (replaceAll m rep s).count a = s.count a := by
  induction s using scan_induction hm with
  | nil => rfl
  | skip c cs h ih => rw [replaceAll_cons h,List.count_cons,List.count_cons,ih]
  | step s r h ih =>
    obtain ⟨w,-,rfl⟩ := hm s r h
    rw [replaceAll_match hm h,List.count_append,List.count_append,hrep w r h,ih]

/-- Replacing matches by a text without some character does not add that character. -/
theorem count_replaceAll_le [BEq α] [LawfulBEq α] (hm : Pattern.Proper m) {a : α} (ha : a ∉ rep) (s : List α) :
    (replaceAll m rep s).count a ≤ s.count a := by
  induction s using scan_induction hm with
  | nil => exact Nat.le_refl _
  | skip c cs h ih =>
    rw [replaceAll_cons h,List.count_cons,List.count_cons]
    omega
  | step s r h ih =>
    obtain ⟨w,-,rfl⟩ := hm s r h
    rw [replaceAll_match hm h,List.count_append,List.count_append,List.count_eq_zero_of_not_mem ha]
    omega

end ReplaceAll

end Thintuit.Text
