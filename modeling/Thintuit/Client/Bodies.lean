import Thintuit.Text.Reading
import Thintuit.Client.Forms
import Thintuit.Client.Dashboard

/-! The bodies of the pages' requests on the wire. `JSON.stringify` prints them, the browser
sends the text as UTF-8, and the server decodes the bytes for its log and with `json.loads`. -/
namespace Thintuit.Client
open Server Text

/-- `bytes.decode('utf-8')`, without the text of its error. -/
def decodeUtf8 (bytes : Bytes) : Option PyStr :=
  bytes.toByteArray.utf8Decode?.map (fun chars => chars.toList.map (fun c => Fin.ofNat 0x110000 c.toNat))

theorem decodeUtf8_utf8 {s : PyStr} (h : ∀ c ∈ s, surrogate c = false) : decodeUtf8 (utf8 s) = some s := by
  have hbytes : (utf8 s).toByteArray = (s.map (fun c => Char.ofNat c.val)).utf8Encode := by
    rw [List.utf8Encode,List.flatMap_map,utf8]
  rw [decodeUtf8,hbytes,List.utf8Decode?_utf8Encode,Option.map_some,List.map_map]
  congr 1
  conv_rhs => rw [← List.map_id s]
  apply List.map_congr_left
  intro c hc
  have hvalid : c.val.isValidChar := by
    have hs := h c hc
    simp only [surrogate,Bool.and_eq_false_iff,decide_eq_false_iff_not] at hs
    unfold Nat.isValidChar
    omega
  apply Fin.ext
  simp [Char.toNat_ofNat,hvalid]

/-! `json.loads` on objects whose values are strings, the only ones the pages send. -/
namespace Loads

/-- So many hexadecimal digits after those that gave `n`. -/
def hexDigits : Nat → Nat → Reader CodePoint Nat
  | 0, n, s => some (n,s)
  | _+1, _, [] => none
  | k+1, n, c :: s =>
    match hexValue c with
    | none => none
    | some d => hexDigits k (16*n+d) s

/-- What the character after a backslash stands for. -/
def escaped (c : CodePoint) : Option CodePoint :=
  ([(34,34),(92,92),(47,47),(98,8),(102,12),(110,10),(114,13),(116,9)] : List (CodePoint × CodePoint)).lookup c

/-- The rest of an escape; the flag tells the characters that are written as their number. -/
def escape : Reader CodePoint (Bool × CodePoint)
  | [] => none
  | c :: s =>
    if c = 117 then (hexDigits 4 0 s).map (fun r => ((true,Fin.ofNat 0x110000 r.1),r.2))
    else (escaped c).map (fun c => ((false,c),s))

/-- A character of a string. Control characters have to be escaped. -/
def character : Reader CodePoint (Bool × CodePoint)
  | [] => none
  | c :: s =>
    if c = 92 then escape s
    else if c.val < 32 then none
    else some ((false,c),s)

def high (c : CodePoint) : Bool := 0xd800 ≤ c.val && c.val ≤ 0xdbff

def low (c : CodePoint) : Bool := 0xdc00 ≤ c.val && c.val ≤ 0xdfff

/-- Two surrogates written as numbers one after the other are one character. -/
def joined : List (Bool × CodePoint) → PyStr
  | [] => []
  | [(_,c)] => [c]
  | (u,c) :: (v,d) :: s =>
    if u && v && high c && low d then
      Fin.ofNat 0x110000 (0x10000 + (c.val - 0xd800) * 0x400 + (d.val - 0xdc00)) :: joined s
    else c :: joined ((v,d) :: s)

def space (c : CodePoint) : Bool := [32,9,10,13].contains c.val

def mark (c : CodePoint) : Reader CodePoint Unit := (Reader.expect c).skipping space

def string : Reader CodePoint PyStr :=
  ((Reader.expect 34).andThen (Reader.manyUntil (Reader.expect 34) character)).map (fun r => joined r.2)

def member : Reader CodePoint (PyStr × PyStr) :=
  ((string.skipping space).andThen ((mark 58).andThen (string.skipping space))).map (fun r => (r.1,r.2.2))

def members : Reader CodePoint (List (PyStr × PyStr)) :=
  (member.andThen (Reader.manyUntil (mark 125) (((mark 44).andThen member).map Prod.snd))).map (fun r => r.1 :: r.2)

def object : Reader CodePoint (List (PyStr × PyStr)) :=
  ((mark 123).andThen (((mark 125).map (fun _ => [])).orElse members)).map Prod.snd

/-- A key that comes again keeps its place and gets the new value. -/
def set (d : List (PyStr × PyStr)) (member : PyStr × PyStr) : List (PyStr × PyStr) :=
  if d.any (fun f => f.1 = member.1) then d.map (fun f => if f.1 = member.1 then member else f) else d ++ [member]

end Loads

def loads (text : PyStr) : Option Json :=
  match Loads.object text with
  | none => none
  | some (fields,rest) =>
    if rest.all Loads.space then some (.obj ((fields.foldl Loads.set []).map (fun f => (f.1,.str f.2)))) else none

namespace Loads

/-! Characters and their escapes. -/

/-- The characters with an escape of their own. -/
def named : List CodePoint := [34,92,8,9,10,12,13]

/-- The characters `JSON.stringify` writes as numbers. -/
def numbered (c : CodePoint) : Bool := (surrogate c || c.val < 32) && !named.contains c

private theorem hexDigit_not_surrogate : ∀ d, d < 16 → surrogate (hexDigit d) = false := by decide

private theorem hexText_of_lt {n : Nat} (h : n < 16) : hexText n = [hexDigit n] := by
  rw [hexText,Nat.toDigits_of_lt_base h,py,String.toList_ofList]
  rfl

private theorem hexText_of_le {n : Nat} (h : 16 ≤ n) : hexText n = hexText (n/16) ++ [hexDigit (n%16)] := by
  rw [hexText,Nat.toDigits_of_base_le (by decide) h,py,String.toList_ofList,List.map_append,hexText,py,String.toList_ofList]
  rfl

/-- The escape of a number below 65536. -/
def number (n : Nat) : PyStr := [92,117,hexDigit (n/4096),hexDigit (n/256%16),hexDigit (n/16%16),hexDigit (n%16)]

theorem jsonEscape_cases (c : CodePoint) :
    c ∈ named ∨ numbered c = true ∧ c.val < 0x10000 ∧ jsonEscape c = number c.val ∨
      numbered c = false ∧ 32 ≤ c.val ∧ c ≠ 34 ∧ c ≠ 92 ∧ surrogate c = false ∧ jsonEscape c = [c] := by
  by_cases hnamed : c ∈ named
  · exact .inl hnamed
  have hcontains : named.contains c = false := by simpa using hnamed
  simp only [named,List.mem_cons,List.not_mem_nil,or_false,not_or,Fin.ext_iff] at hnamed
  obtain ⟨h34,h92,h8,h9,h10,h12,h13⟩ : c.val ≠ 34 ∧ c.val ≠ 92 ∧ c.val ≠ 8 ∧ c.val ≠ 9 ∧ c.val ≠ 10 ∧ c.val ≠ 12 ∧ c.val ≠ 13 :=
    hnamed
  refine .inr ?_
  unfold jsonEscape numbered
  rw [hcontains,if_neg h34,if_neg h92,if_neg h8,if_neg h9,if_neg h10,if_neg h12,if_neg h13]
  by_cases h16 : c.val < 16
  · have hdigits : c.val/4096 = 0 ∧ c.val/256%16 = 0 ∧ c.val/16%16 = 0 ∧ c.val%16 = c.val := by omega
    rw [if_pos h16,hexText_of_lt h16,number,hdigits.1,hdigits.2.1,hdigits.2.2.1,hdigits.2.2.2]
    exact .inl ⟨by simp; omega,by omega,rfl⟩
  rw [if_neg h16]
  by_cases h32 : c.val < 32
  · have hdigits : c.val/4096 = 0 ∧ c.val/256%16 = 0 ∧ c.val/16%16 = c.val/16 := by omega
    rw [if_pos h32,hexText_of_le (by omega),hexText_of_lt (by omega),number,hdigits.1,hdigits.2.1,hdigits.2.2]
    exact .inl ⟨by simp [h32],by omega,rfl⟩
  rw [if_neg h32]
  cases hs : surrogate c with
  | true =>
    have hrange : 0xd800 ≤ c.val ∧ c.val ≤ 0xdfff := by simpa [surrogate] using hs
    have hdigits : c.val/16/16/16 = c.val/4096 ∧ c.val/16/16 = c.val/256 := by omega
    rw [if_pos rfl,hexText_of_le (by omega),hexText_of_le (by omega),hexText_of_le (by omega),hexText_of_lt (by omega),
      hdigits.1,hdigits.2]
    exact .inl ⟨rfl,by omega,rfl⟩
  | false =>
    rw [if_neg (by simp)]
    exact .inr ⟨by simp [h32],by omega,fun h => h34 (by rw [h]; rfl),fun h => h92 (by rw [h]; rfl),rfl,rfl⟩

private theorem hexDigits_hexDigit {d : Nat} (hd : d < 16) (k n : Nat) (s : PyStr) :
    hexDigits (k+1) n (hexDigit d :: s) = hexDigits k (16*n+d) s := by
  rw [hexDigits,hexValue_hexDigit d hd]

private theorem reads_number (c : CodePoint) (hc : c.val < 0x10000) : Reads character (number c.val) (true,c) := by
  intro rest
  change (hexDigits 4 0 (hexDigit _ :: hexDigit _ :: hexDigit _ :: hexDigit _ :: rest)).map _ = _
  rw [hexDigits_hexDigit (by omega),hexDigits_hexDigit (by omega),hexDigits_hexDigit (by omega),hexDigits_hexDigit (by omega),
    hexDigits,Option.map_some]
  have hvalue : 16*(16*(16*(16*0+c.val/4096)+c.val/256%16)+c.val/16%16)+c.val%16 = c.val := by omega
  have hofNat : Fin.ofNat 0x110000 c.val = c := Fin.ext (Nat.mod_eq_of_lt c.isLt)
  rw [hvalue,hofNat]

theorem reads_character (c : CodePoint) : Reads character (jsonEscape c) (numbered c,c) := by
  rcases jsonEscape_cases c with h | ⟨hn,hc,he⟩ | ⟨hn,h32,-,h92,-,he⟩
  · intro rest
    fin_cases h <;> rfl
  · rw [hn,he]
    exact reads_number c hc
  · intro rest
    rw [hn,he,List.singleton_append,character,if_neg h92,if_neg (by omega)]

/-- No escape starts with a quotation mark. -/
theorem jsonEscape_open (c : CodePoint) (rest : PyStr) : Reader.expect 34 (jsonEscape c ++ rest) = none := by
  rcases jsonEscape_cases c with h | ⟨-,-,he⟩ | ⟨-,-,h34,-,-,he⟩
  · fin_cases h <;> rfl
  · rw [he]
    rfl
  · rw [he]
    exact expect_ne h34 rest

theorem jsonEscape_ne_nil (c : CodePoint) : jsonEscape c ≠ [] := by
  rcases jsonEscape_cases c with h | ⟨-,-,he⟩ | ⟨-,-,-,-,-,he⟩
  · fin_cases h <;> decide
  · rw [he,number]
    simp
  · simp [he]

/-- Surrogates are escaped, so that the text can be sent as UTF-8. -/
theorem jsonEscape_encodable (c : CodePoint) : ∀ x ∈ jsonEscape c, surrogate x = false := by
  rcases jsonEscape_cases c with h | ⟨-,hc,he⟩ | ⟨-,-,-,-,hs,he⟩
  · have hnamed : named.all (fun c => (jsonEscape c).all (fun x => !surrogate x)) = true := by decide
    simpa using List.all_eq_true.mp hnamed c h
  · have hdigit := hexDigit_not_surrogate
    rw [he,number]
    simp only [List.forall_mem_cons]
    exact ⟨rfl,rfl,hdigit _ (by omega),hdigit _ (by omega),hdigit _ (by omega),hdigit _ (by omega),by simp⟩
  · rw [he]
    simpa using hs

/-! Strings, members and whole objects. -/

/-- The strings of JavaScript by code points: a high surrogate before a low one would be one
character. -/
def Paired (s : PyStr) : Prop := s.IsChain (fun c d => ¬ (high c = true ∧ low d = true))

instance (s : PyStr) : Decidable (Paired s) := inferInstanceAs (Decidable (List.IsChain _ s))

theorem joined_numbered {s : PyStr} (h : Paired s) : joined (s.map (fun c => (numbered c,c))) = s := by
  induction s with
  | nil => rfl
  | cons c s ih =>
    cases s with
    | nil => rfl
    | cons d s =>
      obtain ⟨hpair,hs⟩ := List.isChain_cons_cons.mp h
      have hjoin : ¬ (numbered c && numbered d && high c && low d) = true := by
        simp only [Bool.and_eq_true]
        exact fun hall => hpair ⟨hall.1.2,hall.2⟩
      rw [List.map_cons,List.map_cons,joined,if_neg hjoin]
      exact congrArg (c :: ·) (ih hs)

theorem reads_string {s : PyStr} (h : Paired s) : Reads string (jsonString s) s := by
  have hchars : Reads (Reader.manyUntil (Reader.expect 34) character) (s.flatMap jsonEscape ++ [34])
      (s.map (fun c => (numbered c,c))) := by
    have hprint : s.flatMap jsonEscape = (s.map (fun c => (numbered c,c))).flatMap (fun x => jsonEscape x.2) := by
      rw [List.flatMap_map]
    rw [hprint]
    refine (reads_expect 34).manyUntil (fun x hx => ?_) (fun x _ => jsonEscape_open x.2) (fun x _ => jsonEscape_ne_nil x.2)
    obtain ⟨c,-,rfl⟩ := List.mem_map.mp hx
    exact reads_character c
  have hread := ((reads_expect 34).andThen hchars).map (fun r => joined r.2)
  rw [joined_numbered h] at hread
  exact hread

theorem reads_mark {c : CodePoint} (hc : space c = false) : Reads (mark c) [c] () := (reads_expect c).skipping hc

def printMember (f : PyStr × PyStr) : PyStr := jsonString f.1 ++ 58 :: jsonString f.2

theorem reads_member {f : PyStr × PyStr} (hkey : Paired f.1) (hvalue : Paired f.2) : Reads member (printMember f) f := by
  have hstring : ∀ {s : PyStr}, Paired s → Reads (string.skipping space) (jsonString s) s :=
    fun h => (reads_string h).skipping rfl
  have hcolon : Reads (mark 58) [58] () := reads_mark rfl
  exact ((hstring hkey).andThen (hcolon.andThen (hstring hvalue))).map (fun r => (r.1,r.2.2))

theorem jsonText_cons (f : PyStr × PyStr) (fields : List (PyStr × PyStr)) :
    jsonText (f :: fields) = [123] ++ (printMember f ++ (fields.flatMap (fun f => [44] ++ printMember f) ++ [125])) := by
  have hsep : List.intercalate [44] ((f :: fields).map printMember) =
      printMember f ++ fields.flatMap (fun f => [44] ++ printMember f) := by
    induction fields generalizing f with
    | nil => simp
    | cons g fields ih =>
      rw [List.map_cons,List.map_cons,List.intercalate_cons_cons,← List.map_cons,ih g,List.flatMap_cons]
      simp
  change 123 :: List.intercalate [44] ((f :: fields).map printMember) ++ [125] = _
  rw [hsep]
  simp

theorem reads_object {fields : List (PyStr × PyStr)} (h : ∀ f ∈ fields, Paired f.1 ∧ Paired f.2) :
    Reads object (jsonText fields) fields := by
  have hopen : Reads (mark 123) [123] () := reads_mark rfl
  have hclose : Reads (mark 125) [125] () := reads_mark rfl
  have hcomma : Reads (mark 44) [44] () := reads_mark rfl
  cases fields with
  | nil =>
    have hempty : Reads (((mark 125).map (fun _ => [])).orElse members) [125] [] := (hclose.map (fun _ => [])).orElse_left
    exact (hopen.andThen hempty).map Prod.snd
  | cons f fields =>
    obtain ⟨hf,hfields⟩ := List.forall_mem_cons.mp h
    have hitems : Reads (Reader.manyUntil (mark 125) (((mark 44).andThen member).map Prod.snd))
        (fields.flatMap (fun f => [44] ++ printMember f) ++ [125]) fields := by
      refine hclose.manyUntil (fun g hg => ?_) (fun g _ rest => ?_) (fun g _ => by simp)
      · exact (hcomma.andThen (reads_member (hfields g hg).1 (hfields g hg).2)).map Prod.snd
      · exact (skipping_cons rfl _ _).trans (expect_ne (by decide) _)
    rw [jsonText_cons]
    refine (hopen.andThen (Reads.orElse_right (((reads_member hf.1 hf.2).andThen hitems).map _) (fun rest => ?_))).map Prod.snd
    rfl

theorem foldl_set {d fields : List (PyStr × PyStr)} (h : ((d ++ fields).map Prod.fst).Nodup) :
    fields.foldl set d = d ++ fields := by
  induction fields generalizing d with
  | nil => simp
  | cons f fields ih =>
    have hnew : d.any (fun g => g.1 = f.1) = false := by
      rw [List.any_eq_false]
      intro g hg heq
      rw [List.map_append,List.nodup_append'] at h
      exact h.2.2 (List.mem_map_of_mem hg) (by simp [of_decide_eq_true heq])
    rw [List.foldl_cons,set,hnew,if_neg (by simp),ih (by simpa using h)]
    simp

theorem jsonText_encodable (fields : List (PyStr × PyStr)) : ∀ x ∈ jsonText fields, surrogate x = false := by
  have hstring : ∀ s : PyStr, ∀ x ∈ jsonString s, surrogate x = false := by
    intro s x hx
    simp only [jsonString,List.cons_append,List.mem_cons,List.mem_append,List.mem_flatMap,List.not_mem_nil,or_false] at hx
    rcases hx with rfl | ⟨c,-,hc⟩ | rfl
    · rfl
    · exact jsonEscape_encodable c x hc
    · rfl
  have hmember : ∀ f : PyStr × PyStr, ∀ x ∈ printMember f, surrogate x = false := by
    intro f x hx
    rcases List.mem_append.mp hx with hx | hx
    · exact hstring f.1 x hx
    · rcases List.mem_cons.mp hx with rfl | hx
      · rfl
      · exact hstring f.2 x hx
  intro x hx
  cases fields with
  | nil =>
    have hbraces : (jsonText []).all (fun x => !surrogate x) = true := rfl
    simpa using List.all_eq_true.mp hbraces x hx
  | cons f fields =>
    rw [jsonText_cons] at hx
    simp only [List.mem_append,List.mem_flatMap,List.mem_singleton] at hx
    rcases hx with rfl | hx | ⟨g,-,rfl | hx⟩ | rfl
    · rfl
    · exact hmember f x hx
    · rfl
    · exact hmember g x hx
    · rfl

/-! Values of the inputs. -/

theorem paired_of_not_high {s : PyStr} (h : ∀ c ∈ s, high c = false) : Paired s := by
  induction s with
  | nil => exact .nil
  | cons c s ih =>
    obtain ⟨hc,hs⟩ := List.forall_mem_cons.mp h
    refine List.isChain_cons.mpr ⟨fun d _ hpair => ?_,ih hs⟩
    rw [hc] at hpair
    cases hpair.1

theorem stripped_part_of (space : CodePoint → Bool) (s : PyStr) : stripped space s <:+: s := by
  have hback : stripped space s <+: s.dropWhile space := by
    rw [← List.reverse_suffix,stripped,List.reverse_reverse]
    exact List.dropWhile_suffix space
  exact hback.isInfix.trans (List.dropWhile_suffix space).isInfix

end Loads

open Loads

/-- What the server makes of the bytes of a body: the text it logs and the decoded JSON. -/
def received (bytes : Bytes) : Option (PyStr × Json) :=
  match decodeUtf8 bytes with
  | none => none
  | some text => (loads text).map (fun json => (text,json))

/-- The text of the body can be sent, and the server gets back the text and the JSON of the request. -/
def Arrives (request : Request) : Prop :=
  ∃ text json bytes, request.rawBody = .ok text ∧ request.body = some json ∧ encode text = .ok bytes ∧
    received bytes = some (text,json)

theorem postJson_arrives (path : String) (session : Session) {fields : List (PyStr × PyStr)}
    (hpaired : ∀ f ∈ fields, Paired f.1 ∧ Paired f.2) (hkeys : (fields.map Prod.fst).Nodup) :
    Arrives (postJson path session fields) := by
  have hencodable := jsonText_encodable fields
  have hloads : loads (jsonText fields) = some (.obj (fields.map (fun f => (f.1,.str f.2)))) := by
    have hread := reads_object hpaired []
    rw [List.append_nil] at hread
    rw [loads,hread]
    dsimp only
    rw [List.all_nil,if_pos rfl,foldl_set (by simpa using hkeys),List.nil_append]
  refine ⟨_,_,_,rfl,rfl,(encode_eq_ok_iff _ _).mpr ⟨hencodable,rfl⟩,?_⟩
  rw [received,decodeUtf8_utf8 hencodable]
  dsimp only
  rw [hloads]
  rfl

theorem paired_emailValue {email : PyStr} {a : Address} (h : Address.parse (emailValue email) = some a) :
    Paired (emailValue email) ∧ Paired ((trim (emailValue email)).map asciiLower) := by
  have hvisible : ∀ a : Address, Paired a.text := by
    intro a
    refine paired_of_not_high (fun c hc => ?_)
    have := a.visible c hc
    simp [high]
    omega
  have htext := (Address.parse_eq_some h).1
  rw [htext,Address.trim_text,Address.map_text]
  exact ⟨hvisible a,hvisible a.lower⟩

theorem loginForm_eq_some {cookies : List (PyStr × PyStr)} {email password : PyStr} {request : Request}
    (h : loginForm cookies email password = some request) :
    (∃ a, Address.parse (emailValue email) = some a) ∧ request = loginUser cookies (emailValue email) (textValue password) := by
  unfold loginForm at h
  split at h
  · rename_i hvalid
    exact ⟨Option.isSome_iff_exists.mp hvalid.1,(Option.some.inj h).symm⟩
  · cases h

theorem changePassword_eq_some {cookies : List (PyStr × PyStr)} {current new confirm : PyStr} {request : Request}
    (h : Dashboard.changePassword cookies current new confirm = some request) :
    request = postJson "/change-password" ⟨[],cookies⟩ [(py "current_password",current),(py "new_password",new)] := by
  unfold Dashboard.changePassword at h
  split at h
  · cases h
  · exact (Option.some.inj h).symm

/-- Whatever is typed into the forms of the site, lone surrogates, quotes and control characters
included: if the browser sends a request, its body can be encoded, so that the server's
log of it never fails, and the server decodes exactly the values the form had. -/
theorem form_bodies_arrive (cookies : List (PyStr × PyStr)) {name email password new : PyStr} {request : Request}
    (hname : Paired (textValue name)) (hpassword : Paired (textValue password)) (hnew : Paired (textValue new))
    (hrequest : registrationForm cookies name email password = some request ∨ loginForm cookies email password = some request ∨
      ∃ confirm, Dashboard.changePassword cookies (textValue password) (textValue new) confirm = some request) :
    Arrives request := by
  rcases hrequest with h | h | ⟨confirm,h⟩
  · obtain ⟨⟨a,ha⟩,-,rfl⟩ := registrationForm_eq_some h
    have hname' : Paired (trim (textValue name)) := hname.infix (stripped_part_of jsWhitespace _)
    refine postJson_arrives _ _ ?_ (show [py "name",py "email",py "password"].Nodup by decide)
    simp only [List.forall_mem_cons]
    exact ⟨⟨by decide,hname'⟩,⟨by decide,(paired_emailValue ha).2⟩,⟨by decide,hpassword⟩,by simp⟩
  · obtain ⟨⟨a,ha⟩,rfl⟩ := loginForm_eq_some h
    refine postJson_arrives _ _ ?_ (show [py "email",py "password"].Nodup by decide)
    simp only [List.forall_mem_cons]
    exact ⟨⟨by decide,(paired_emailValue ha).1⟩,⟨by decide,hpassword⟩,by simp⟩
  · obtain rfl := changePassword_eq_some h
    refine postJson_arrives _ _ ?_ (show [py "current_password",py "new_password"].Nodup by decide)
    simp only [List.forall_mem_cons]
    exact ⟨⟨by decide,hpassword⟩,⟨by decide,hnew⟩,by simp⟩

/-- A password of a lone surrogate, a quotation mark, a backslash and a control character. -/
theorem form_bodies_arrive_escaped :
    ∃ request, loginForm [] (py "user@example.com") [0xd800,34,92,7,0x1f600,97] = some request ∧ Arrives request := by
  have hpassword : Paired (textValue [0xd800,34,92,7,0x1f600,97]) := by decide
  have hform : (loginForm [] (py "user@example.com") [0xd800,34,92,7,0x1f600,97]).isSome = true := by decide +kernel
  obtain ⟨request,hrequest⟩ := Option.isSome_iff_exists.mp hform
  exact ⟨request,hrequest,form_bodies_arrive [] hpassword hpassword hpassword (.inr (.inl hrequest))⟩

end Thintuit.Client
