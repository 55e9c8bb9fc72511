import Mathlib

/-! Readers, which take a value off the front of a text and leave the rest, against the
printers whose output they read back. -/
namespace Thintuit.Text
variable {β α γ : Type}

def Reader (β α : Type) := List β → Option (α × List β)

/-- The reader takes `a` off every text that starts with `text`. -/
def Reads (read : Reader β α) (text : List β) (a : α) : Prop := ∀ rest, read (text ++ rest) = some (a,rest)

namespace Reader

def expect [DecidableEq β] (c : β) : Reader β Unit
  | [] => none
  | d :: s => if d = c then some ((),s) else none

def map (f : α → γ) (read : Reader β α) : Reader β γ := fun s => (read s).map (fun r => (f r.1,r.2))

def andThen (read : Reader β α) (next : Reader β γ) : Reader β (α × γ) := fun s =>
  match read s with
  | none => none
  | some (a,s) => next.map (fun b => (a,b)) s

def orElse (read other : Reader β α) : Reader β α := fun s => (read s).or (other s)

def skipping (space : β → Bool) (read : Reader β α) : Reader β α := fun s => read (s.dropWhile space)

/-- Items up to a closing mark, at most `fuel` many. -/
def upTo (close : Reader β Unit) (item : Reader β α) : Nat → Reader β (List α)
  | 0, _ => none
  | fuel+1, s =>
    match close s with
    | some (_,s) => some ([],s)
    | none =>
      match item s with
      | none => none
      | some (a,s) => (upTo close item fuel s).map (fun r => (a :: r.1,r.2))

/-- An item takes at least one character, so the length of the text bounds their number. -/
def manyUntil (close : Reader β Unit) (item : Reader β α) : Reader β (List α) := fun s => upTo close item (s.length+1) s

end Reader

section Rules
variable {read : Reader β α} {text : List β} {a : α}

theorem reads_expect [DecidableEq β] (c : β) : Reads (Reader.expect c) [c] () := by
  intro rest
  simp [Reader.expect]

theorem expect_ne [DecidableEq β] {c d : β} (h : d ≠ c) (s : List β) : Reader.expect c (d :: s) = none := by
  simp [Reader.expect,h]

theorem Reads.map (f : α → γ) (h : Reads read text a) : Reads (read.map f) text (f a) := by
  intro rest
  simp [Reader.map,h rest]

theorem Reads.andThen {next : Reader β γ} {more : List β} {b : γ} (h : Reads read text a) (hnext : Reads next more b) :
    Reads (read.andThen next) (text ++ more) (a,b) := by
  intro rest
  rw [List.append_assoc,Reader.andThen,h]
  exact hnext.map (fun b => (a,b)) rest

theorem Reads.orElse_left {other : Reader β α} (h : Reads read text a) : Reads (read.orElse other) text a := by
  intro rest
  simp [Reader.orElse,h rest]

theorem Reads.orElse_right {other : Reader β α} (h : Reads read text a) (hother : ∀ rest, other (text ++ rest) = none) :
    Reads (other.orElse read) text a := by
  intro rest
  simp [Reader.orElse,hother rest,h rest]

theorem skipping_cons {space : β → Bool} {c : β} (hc : space c = false) (read : Reader β α) (s : List β) :
    read.skipping space (c :: s) = read (c :: s) := by
  rw [Reader.skipping,List.dropWhile_cons_of_neg (by simp [hc])]

theorem Reads.skipping {space : β → Bool} {c : β} (h : Reads read (c :: text) a) (hc : space c = false) :
    Reads (read.skipping space) (c :: text) a := by
  intro rest
  rw [List.cons_append,skipping_cons hc]
  exact h rest

variable {close : Reader β Unit} {item : Reader β α} {print : α → List β} {mark : List β}

private theorem upTo_print (hclose : Reads close mark ()) {xs : List α} (hitem : ∀ x ∈ xs, Reads item (print x) x)
    (hopen : ∀ x ∈ xs, ∀ rest, close (print x ++ rest) = none) {fuel : Nat} (hfuel : xs.length < fuel) (rest : List β) :
    Reader.upTo close item fuel (xs.flatMap print ++ mark ++ rest) = some (xs,rest) := by
  induction xs generalizing fuel with
  | nil =>
    obtain ⟨fuel,rfl⟩ : ∃ k, fuel = k+1 := ⟨fuel-1,by simp at hfuel; omega⟩
    rw [List.flatMap_nil,List.nil_append,Reader.upTo,hclose]
  | cons x xs ih =>
    obtain ⟨fuel,rfl⟩ : ∃ k, fuel = k+1 := ⟨fuel-1,by simp at hfuel; omega⟩
    rw [List.flatMap_cons,List.append_assoc,List.append_assoc,Reader.upTo,hopen x List.mem_cons_self,
      hitem x List.mem_cons_self,← List.append_assoc]
    dsimp only
    rw [ih (fun y hy => hitem y (List.mem_cons_of_mem x hy)) (fun y hy => hopen y (List.mem_cons_of_mem x hy))
      (by simpa using hfuel)]
    rfl

theorem Reads.manyUntil (hclose : Reads close mark ()) {xs : List α} (hitem : ∀ x ∈ xs, Reads item (print x) x)
    (hopen : ∀ x ∈ xs, ∀ rest, close (print x ++ rest) = none) (hprint : ∀ x ∈ xs, print x ≠ []) :
    Reads (Reader.manyUntil close item) (xs.flatMap print ++ mark) xs := by
  intro rest
  apply upTo_print hclose hitem hopen
  have hlength : xs.length ≤ (xs.flatMap print).length := by
    rw [List.length_flatMap]
    have h := List.sum_le_sum (l := xs) (f := fun _ => 1) (g := fun x => (print x).length)
      (fun x hx => List.length_pos_iff.mpr (hprint x hx))
    simpa using h
  simp only [List.length_append]
  omega

end Rules
end Thintuit.Text
