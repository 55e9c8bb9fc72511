import Thintuit.Client.Fetch

/-! The registration and login pages. The browser sanitizes what is typed, submits only
forms that meet the constraints of their inputs, and then runs the page's script. -/
namespace Thintuit.Client
open Server

def capital (c : CodePoint) : Bool := 65 ≤ c.val && c.val ≤ 90

def alphanumeric (c : CodePoint) : Bool :=
  48 ≤ c.val && c.val ≤ 57 || capital c || 97 ≤ c.val && c.val ≤ 122

/-- What the local part of an address may hold besides letters and digits. -/
def atomSpecials : List Nat := [33,35,36,37,38,39,42,43,45,46,47,61,63,94,95,96,123,124,125,126]

def atomText (c : CodePoint) : Bool := alphanumeric c || atomSpecials.contains c.val

/-- Labels of at most 63 letters, digits and inner hyphens. `length` counts the label so
far, `closed` tells whether it may end here. -/
def domainFrom (length : Nat) (closed : Bool) : PyStr → Bool
  | [] => closed
  | c :: s =>
    if c = 46 then closed && domainFrom 0 false s
    else if alphanumeric c then length < 63 && domainFrom (length+1) true s
    else c = 45 && 0 < length && length < 63 && domainFrom (length+1) false s

/-- A valid value of `<input type="email" required>`. -/
structure Address where
  name : PyStr
  domain : PyStr
  name_ne_nil : name ≠ []
  name_atoms : name.all atomText = true
  domain_labels : domainFrom 0 false domain = true

namespace Address

def text (a : Address) : PyStr := a.name ++ 64 :: a.domain

def localPart (s : PyStr) : PyStr := s.takeWhile (fun c => c ≠ 64)

def parse (s : PyStr) : Option Address :=
  if h : localPart s ≠ [] ∧ (localPart s).all atomText = true ∧
      domainFrom 0 false ((s.dropWhile (fun c => c ≠ 64)).drop 1) = true then
    some ⟨_,_,h.1,h.2.1,h.2.2⟩
  else none

theorem parse_eq_some {s : PyStr} {a : Address} (h : parse s = some a) : s = a.text ∧ a.name = localPart s := by
  unfold parse at h
  split at h
  · rename_i hv
    obtain rfl := Option.some.inj h
    refine ⟨?_,rfl⟩
    simp only [text,localPart]
    have hsplit : s.takeWhile (fun c => c ≠ 64) ++ s.dropWhile (fun c => c ≠ 64) = s := List.takeWhile_append_dropWhile
    cases hd : s.dropWhile (fun c => c ≠ 64) with
    | nil =>
      have hlabels := hv.2.2
      rw [hd] at hlabels
      cases hlabels
    | cons c d =>
      have hc := List.head?_dropWhile_not (fun c : CodePoint => c ≠ 64) s
      rw [hd] at hc
      obtain rfl : c = 64 := by simpa using hc
      rw [hd] at hsplit
      exact hsplit.symm
  · cases h

end Address

private theorem asciiLower_val (c : CodePoint) :
    (asciiLower c).val = if capital c then c.val + 32 else c.val := by
  unfold asciiLower capital
  by_cases h : 65 ≤ c.val ∧ c.val ≤ 90
  · have hlt : c.val + 32 < 0x110000 := by omega
    simp [h,Fin.ofNat,Nat.mod_eq_of_lt hlt]
  · simp [h]

theorem asciiLower_eq_self_iff (c : CodePoint) : asciiLower c = c ↔ capital c = false := by
  rw [Fin.ext_iff,asciiLower_val]
  cases capital c <;> simp

theorem asciiLower_asciiLower (c : CodePoint) : asciiLower (asciiLower c) = asciiLower c := by
  rw [asciiLower_eq_self_iff,capital,asciiLower_val]
  cases hc : capital c <;> simp [capital] at hc ⊢ <;> omega

theorem map_asciiLower_eq_self_iff (s : PyStr) : s.map asciiLower = s ↔ ∀ c ∈ s, capital c = false := by
  have hself : s.map asciiLower = s ↔ s.map asciiLower = s.map id := by rw [List.map_id]
  rw [hself,List.map_inj_left]
  exact forall₂_congr (fun c _ => asciiLower_eq_self_iff c)

@[simp] theorem alphanumeric_asciiLower (c : CodePoint) : alphanumeric (asciiLower c) = alphanumeric c := by
  have hval := asciiLower_val c
  cases hc : capital c with
  | false => rw [(asciiLower_eq_self_iff c).mpr hc]
  | true =>
    rw [hc,if_pos rfl] at hval
    simp only [capital,Bool.and_eq_true,decide_eq_true_eq] at hc
    have hupper : alphanumeric c = true := by simp [alphanumeric,capital,hc]
    have hlower : alphanumeric (asciiLower c) = true := by
      have : 97 ≤ c.val + 32 ∧ c.val + 32 ≤ 122 := by omega
      simp [alphanumeric,hval,this]
    rw [hupper,hlower]

@[simp] theorem atomText_asciiLower (c : CodePoint) : atomText (asciiLower c) = atomText c := by
  cases hc : capital c with
  | false => rw [(asciiLower_eq_self_iff c).mpr hc]
  | true =>
    have halpha : alphanumeric c = true := by simp [alphanumeric,hc]
    simp [atomText,halpha]

theorem asciiLower_eq_iff {c d : CodePoint} (hd : alphanumeric d = false) : asciiLower c = d ↔ c = d := by
  have hself : ∀ x, alphanumeric x = false → asciiLower x = x := by
    intro x hx
    rw [asciiLower_eq_self_iff]
    simp only [alphanumeric,Bool.or_eq_false_iff] at hx
    exact hx.1.2
  constructor
  · intro h
    have hc : alphanumeric c = false := by rw [← alphanumeric_asciiLower,h,hd]
    rw [← h,hself c hc]
  · rintro rfl
    exact hself c hd

theorem domainFrom_map_asciiLower (length : Nat) (closed : Bool) (s : PyStr) :
    domainFrom length closed (s.map asciiLower) = domainFrom length closed s := by
  induction s generalizing length closed with
  | nil => rfl
  | cons c s ih =>
    simp only [List.map_cons,domainFrom,ih,alphanumeric_asciiLower]
    simp only [asciiLower_eq_iff (show alphanumeric 46 = false from rfl),
      asciiLower_eq_iff (show alphanumeric 45 = false from rfl)]

/-- `toLowerCase()`. The value of an email input is ASCII. -/
def Address.lower (a : Address) : Address where
  name := a.name.map asciiLower
  domain := a.domain.map asciiLower
  name_ne_nil := by simp [a.name_ne_nil]
  name_atoms := by
    rw [List.all_map,← a.name_atoms]
    congr 1
    funext c
    exact atomText_asciiLower c
  domain_labels := (domainFrom_map_asciiLower 0 false a.domain).trans a.domain_labels

theorem Address.map_text (a : Address) : a.text.map asciiLower = a.lower.text := by
  simp only [text,lower,List.map_append,List.map_cons]
  rfl

theorem Address.at_not_mem_name (a : Address) : 64 ∉ a.name := by
  intro h
  have := List.all_eq_true.mp a.name_atoms 64 h
  cases this

private theorem ne_at {m : PyStr} (hm : 64 ∉ m) : ∀ c ∈ m, decide (c ≠ 64) = true := by
  intro c hc
  have hne : c ≠ 64 := fun h => hm (h ▸ hc)
  simpa using hne

theorem localPart_append {m : PyStr} (hm : 64 ∉ m) (d : PyStr) : Address.localPart (m ++ 64 :: d) = m := by
  rw [Address.localPart,List.takeWhile_append_of_pos (ne_at hm)]
  simp

theorem dropWhile_append {m : PyStr} (hm : 64 ∉ m) (d : PyStr) :
    (m ++ 64 :: d).dropWhile (fun c => c ≠ 64) = 64 :: d := by
  rw [List.dropWhile_append_of_pos (ne_at hm)]
  simp

/-! Values of inputs, as the page's script reads them. -/

/-- A line of text keeps no line breaks. -/
def textValue (typed : PyStr) : PyStr := typed.filter (fun c => c ≠ 10 && c ≠ 13)

def stripped (space : CodePoint → Bool) (s : PyStr) : PyStr := ((s.dropWhile space).reverse.dropWhile space).reverse

def asciiWhitespace (c : CodePoint) : Bool := [9,10,12,13,32].contains c.val

/-- An email input strips its surrounding whitespace too. -/
def emailValue (typed : PyStr) : PyStr := stripped asciiWhitespace (textValue typed)

def jsWhitespace (c : CodePoint) : Bool :=
  [9,10,11,12,13,32,0xA0,0x1680,0x2028,0x2029,0x202F,0x205F,0x3000,0xFEFF].contains c.val ||
    0x2000 ≤ c.val && c.val ≤ 0x200A

/-- `value.trim()`. -/
def trim (s : PyStr) : PyStr := stripped jsWhitespace s

/-- `registerUser` of `js/main.js`, with the values of its inputs. -/
def registerUser (cookies : List (PyStr × PyStr)) (name email password : PyStr) : Request :=
  postJson "/register" ⟨[],cookies⟩
    [(py "name",trim name),(py "email",(trim email).map asciiLower),(py "password",password)]

/-- `loginUser` of the login page. -/
def loginUser (cookies : List (PyStr × PyStr)) (email password : PyStr) : Request :=
  postJson "/login" ⟨[],cookies⟩ [(py "email",email),(py "password",password)]

/-- The registration form: all three inputs are required. -/
def registrationForm (cookies : List (PyStr × PyStr)) (name email password : PyStr) : Option Request :=
  if (Address.parse (emailValue email)).isSome ∧ textValue name ≠ [] ∧ textValue password ≠ [] then
    some (registerUser cookies (textValue name) (emailValue email) (textValue password))
  else none

def loginForm (cookies : List (PyStr × PyStr)) (email password : PyStr) : Option Request :=
  if (Address.parse (emailValue email)).isSome ∧ textValue password ≠ [] then
    some (loginUser cookies (emailValue email) (textValue password))
  else none

theorem registrationForm_eq_some {cookies : List (PyStr × PyStr)} {name email password : PyStr} {request : Request}
    (h : registrationForm cookies name email password = some request) :
    (∃ address, Address.parse (emailValue email) = some address) ∧ textValue password ≠ [] ∧
      request = registerUser cookies (textValue name) (emailValue email) (textValue password) := by
  unfold registrationForm at h
  split at h
  · rename_i hc
    exact ⟨Option.isSome_iff_exists.mp hc.1,hc.2.2,(Option.some.inj h).symm⟩
  · cases h

private theorem stripped_eq_self {space : CodePoint → Bool} {s : PyStr} (h : ∀ c ∈ s, space c = false) :
    stripped space s = s := by
  have hdrop : ∀ {s : PyStr}, (∀ c ∈ s, space c = false) → s.dropWhile space = s := by
    intro s h
    cases s with
    | nil => rfl
    | cons c s => rw [List.dropWhile_cons_of_neg (by simp [h c List.mem_cons_self])]
  rw [stripped,hdrop h,hdrop (fun c hc => h c (List.mem_reverse.mp hc)),List.reverse_reverse]

theorem stripped_eq_nil_iff (space : CodePoint → Bool) (s : PyStr) : stripped space s = [] ↔ ∀ c ∈ s, space c = true := by
  rw [stripped,List.reverse_eq_nil_iff,List.dropWhile_eq_nil_iff]
  constructor
  · intro h
    -- the head of what is left after the leading spaces would be no space
    cases hd : s.dropWhile space with
    | nil => exact List.dropWhile_eq_nil_iff.mp hd
    | cons c rest =>
      have hhead := List.head?_dropWhile_not space s
      rw [hd] at hhead h
      have hc := h c (by simp)
      simp [hc] at hhead
  · intro h c hc
    exact h c ((List.dropWhile_suffix space).subset (List.mem_reverse.mp hc))

private theorem domainFrom_atoms {length : Nat} {closed : Bool} {s : PyStr} (h : domainFrom length closed s = true) :
    ∀ c ∈ s, atomText c = true := by
  induction s generalizing length closed with
  | nil => simp
  | cons c s ih =>
    have hstep : atomText c = true ∧ ∃ k b, domainFrom k b s = true := by
      rw [domainFrom] at h
      split at h
      · rename_i hc
        exact ⟨by rw [hc]; rfl,_,_,(Bool.and_eq_true _ _ ▸ h).2⟩
      · split at h
        · rename_i _ hc
          exact ⟨by simp [atomText,hc],_,_,(Bool.and_eq_true _ _ ▸ h).2⟩
        · simp only [Bool.and_eq_true,decide_eq_true_eq] at h
          exact ⟨by rw [h.1.1.1]; rfl,_,_,h.2⟩
    obtain ⟨hc,k,b,hs⟩ := hstep
    intro x hx
    rcases List.mem_cons.mp hx with rfl | hx
    · exact hc
    · exact ih hs x hx

theorem Address.atoms_or_at (a : Address) : ∀ c ∈ a.text, atomText c = true ∨ c = 64 := by
  intro c hc
  rcases List.mem_append.mp hc with hc | hc
  · exact .inl (List.all_eq_true.mp a.name_atoms c hc)
  · rcases List.mem_cons.mp hc with rfl | hc
    · exact .inr rfl
    · exact .inl (domainFrom_atoms a.domain_labels c hc)

theorem Address.visible (a : Address) : ∀ c ∈ a.text, 33 ≤ c.val ∧ c.val ≤ 126 := by
  intro c hc
  rcases a.atoms_or_at c hc with h | rfl
  · simp [atomText,alphanumeric,capital,atomSpecials] at h
    omega
  · decide

theorem Address.at_not_mem_domain (a : Address) : 64 ∉ a.domain := by
  intro h
  have := domainFrom_atoms a.domain_labels 64 h
  cases this

/-- Trimming does nothing to an address. -/
theorem Address.trim_text (a : Address) : trim a.text = a.text := by
  apply stripped_eq_self
  intro c hc
  have hvisible := a.visible c hc
  simp [jsWhitespace]
  omega

end Thintuit.Client
