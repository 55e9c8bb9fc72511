import Thintuit.Client.Apart
import Thintuit.Client.PlainHttp

/-! How a browser reads a URL: the host it goes to, and what it asks for there. The URL parser is a
part of the browser. Only what its standard says about plainly written hosts and paths is
assumed of it, and that no more than the end of the host is sought behind such a host. -/
namespace Thintuit.Client
open Server Text

/-- The end of a URL without what a browser drops there. -/
def cleanedEnd (s : PyStr) : PyStr := (s.rdropWhile blank).filter (fun c => !dropped c)

def cleaned (url : PyStr) : PyStr := cleanedEnd (url.dropWhile blank)

theorem cleanedEnd_front {x : PyStr} (hne : x ≠ []) (hx : ∀ c ∈ x, blank c = false) (r : PyStr) :
    cleanedEnd (x ++ r) = x ++ cleanedEnd r := by
  have hkept : x.filter (fun c => !dropped c) = x := by
    refine List.filter_eq_self.mpr (fun c hc => ?_)
    cases hd : dropped c with
    | false => rfl
    | true => exact absurd (blank_of_dropped hd) (by simp [hx c hc])
  have hlast : x.reverse.dropWhile blank = x.reverse := by
    obtain ⟨d,y,hy⟩ := List.exists_cons_of_ne_nil (List.reverse_ne_nil_iff.mpr hne)
    have hd : blank d = false := hx d (List.mem_reverse.mp (hy ▸ List.mem_cons_self))
    rw [hy,List.dropWhile_cons_of_neg (by simp [hd])]
  have hend : (x ++ r).rdropWhile blank = x ++ r.rdropWhile blank := by
    rw [List.rdropWhile,List.rdropWhile,List.reverse_append,List.dropWhile_append,hlast]
    split
    · rename_i hempty
      rw [List.isEmpty_iff.mp hempty]
      simp
    · simp
  rw [cleanedEnd,cleanedEnd,hend,List.filter_append,hkept]

theorem cleaned_front {x : PyStr} (hne : x ≠ []) (hx : ∀ c ∈ x, blank c = false) (r : PyStr) :
    cleaned (x ++ r) = x ++ cleanedEnd r := by
  have hstart : (x ++ r).dropWhile blank = x ++ r := by
    obtain ⟨c,y,rfl⟩ := List.exists_cons_of_ne_nil hne
    exact List.dropWhile_cons_of_neg (by simp [hx c List.mem_cons_self])
  rw [cleaned,hstart,cleanedEnd_front hne hx]

theorem cleaned_of_no_blank {x : PyStr} (hne : x ≠ []) (hx : ∀ c ∈ x, blank c = false) : cleaned x = x := by
  have h := cleaned_front hne hx []
  rw [List.append_nil] at h
  rw [h]
  exact List.append_nil x

/-- What ends a host: a slash of either kind, a query or a fragment. -/
def delimiter (c : CodePoint) : Bool := c = 47 || c = 92 || c = 63 || c = 35

/-- The host in front of the text has ended. -/
def Ends (r : PyStr) : Prop := (cleanedEnd r).head?.all delimiter = true

theorem ends_slash (x : PyStr) : Ends (47 :: x) := by
  have h := cleanedEnd_front (x := [47]) (by simp) (by simp [blank]) x
  rw [Ends,← List.singleton_append,h]
  rfl

/-- One slash and not two of any kind. -/
def SingleSlash (url : PyStr) : Prop := ¬ py "//" <+: cleaned url ∧ ¬ [47,92] <+: cleaned url

/-! Plain spelling. -/

def lower (c : CodePoint) : Bool := 97 ≤ c.val && c.val ≤ 122

def digit (c : CodePoint) : Bool := 48 ≤ c.val && c.val ≤ 57

/-- What plain hosts are made of. -/
def authorityChar (c : CodePoint) : Bool := lower c || digit c || c = 46 || c = 58

def plainName (name : PyStr) : Bool :=
  name.head?.any lower && name.all (fun c => lower c || c = 46) && !decide (py ".." <:+: name)

def portNumber (port : PyStr) : Nat := port.foldl (fun n c => 10*n+(c.val-48)) 0

/-- A port without leading zeros that is not the default of a scheme. -/
def plainPort (port : PyStr) : Bool :=
  port.all digit && port.head?.any (fun c => c ≠ 48) && decide (port.length ≤ 5) && decide (portNumber port < 65536) &&
    !([80,443].contains (portNumber port))

/-- A host in lower case, with its port if that is not the default. -/
def plainAuthority (a : PyStr) : Bool :=
  plainName (a.takeWhile (· ≠ 58)) &&
    match a.dropWhile (· ≠ 58) with
    | [] => true
    | _ :: port => plainPort port

/-- Characters that stand for themselves in a path, a query and a fragment. -/
def literal (c : CodePoint) : Bool :=
  lower c || (65 ≤ c.val && c.val ≤ 90) || digit c || (py "-._~/?#:=&").contains c

/-- A path with its query and fragment that is read as it is written: no segment of it is a dot or two. -/
structure PlainRest (r : PyStr) : Prop where
  slash : r.head? = some 47
  chars : ∀ c ∈ r, literal c = true
  dots : r.IsChain (fun c d => ¬ (c = 47 ∧ d = 46))

/-- A URL with a plainly written host and path, or with such a path only. -/
def Plain (url : PyStr) : Prop :=
  (∃ front ∈ py "//" :: schemes, ∃ a r, url = front ++ (a ++ r) ∧ plainAuthority a = true ∧ PlainRest r) ∨
    PlainRest url ∧ ¬ py "//" <+: url

/-! The browser. -/

/-- The URL parser of a browser. A URL that it does not reject has a host, with the port unless that
is the default, and a path with query and fragment. -/
structure UrlReader (Page : Type) where
  /-- `location.host`. -/
  host : Page → PyStr
  read : Page → PyStr → Option (PyStr × PyStr)
  /-- The path, query and fragment in what follows a host. -/
  rest : PyStr → PyStr

/-- What the standard says of plain hosts and of single slashes. -/
structure UrlReader.Standard {Page : Type} (R : UrlReader Page) : Prop where
  https : ∀ page {a r}, plainAuthority a = true → Ends r → R.read page (py "https://" ++ (a ++ r)) = some (a,R.rest r)
  slashes : ∀ page {a r}, plainAuthority a = true → Ends r → R.read page (py "//" ++ (a ++ r)) = some (a,R.rest r)
  slash : ∀ page {url}, py "/" <+: url → SingleSlash url → R.read page url = some (R.host page,R.rest url)
  /-- A port that is not a number is rejected. -/
  port : ∀ page {name port r}, plainName name = true → (∀ c ∈ port, authorityChar c = true) →
    port.all digit = false → Ends r → R.read page (py "https://" ++ (name ++ 58 :: (port ++ r))) = none
  literal : ∀ {r}, PlainRest r → R.rest r = r

/-- The API, directly and through the proxy. -/
def apiAuthorities : List PyStr := [devHost,apiHost]

namespace UrlReader
variable {Page : Type} (R : UrlReader Page) (page : Page)

def ToApi (url : PyStr) : Prop := ∃ x ∈ R.read page url, x.1 ∈ apiAuthorities

/-- Both URLs go to the API or neither does, and both ask for the same path, query and fragment. -/
def Agree (url url' : PyStr) : Prop :=
  (R.ToApi page url ↔ R.ToApi page url') ∧ (R.read page url).map Prod.snd = (R.read page url').map Prod.snd

variable {R page}

theorem agree_refl (url : PyStr) : R.Agree page url url := ⟨Iff.rfl,rfl⟩

theorem toApi_iff {url a r : PyStr} (h : R.read page url = some (a,r)) : R.ToApi page url ↔ a ∈ apiAuthorities := by
  simp [ToApi,h]

theorem agree_iff_of_read {url url' a a' r r' : PyStr} (h : R.read page url = some (a,r))
    (h' : R.read page url' = some (a',r')) :
    R.Agree page url url' ↔ (a ∈ apiAuthorities ↔ a' ∈ apiAuthorities) ∧ r = r' := by
  rw [Agree,toApi_iff h,toApi_iff h',h,h']
  simp

end UrlReader

/-! Plain hosts. -/

theorem mem_plainName {name : PyStr} (h : plainName name = true) {c : CodePoint} (hc : c ∈ name) : lower c = true ∨ c = 46 := by
  simp only [plainName,Bool.and_eq_true,List.all_eq_true,Bool.or_eq_true,decide_eq_true_eq] at h
  exact h.1.2 c hc

theorem authorityChar_of_name {c : CodePoint} (h : lower c = true ∨ c = 46) : authorityChar c = true := by
  rcases h with h | rfl
  · simp [authorityChar,h]
  · rfl

theorem mem_plainPort {port : PyStr} (h : plainPort port = true) {c : CodePoint} (hc : c ∈ port) : digit c = true := by
  simp only [plainPort,Bool.and_eq_true,List.all_eq_true] at h
  exact h.1.1.1.1 c hc

theorem plainPort_length {port : PyStr} (h : plainPort port = true) : port ≠ [] ∧ port.length ≤ 5 := by
  simp only [plainPort,Bool.and_eq_true,decide_eq_true_eq] at h
  refine ⟨?_,h.1.1.2⟩
  rintro rfl
  exact absurd h.1.1.1.2 (by decide)

theorem colon_not_mem_plainName {name : PyStr} (h : plainName name = true) : 58 ∉ name := by
  intro hc
  rcases mem_plainName h hc with hlower | hdot
  · exact absurd hlower (by decide)
  · exact absurd hdot (by decide)

theorem plainAuthority_iff (a : PyStr) : plainAuthority a = true ↔
    plainName a = true ∨ ∃ name port, a = name ++ 58 :: port ∧ plainName name = true ∧ plainPort port = true := by
  have hsplit := List.takeWhile_append_dropWhile (p := (· ≠ 58)) (l := a)
  constructor
  · intro h
    rw [plainAuthority,Bool.and_eq_true] at h
    cases hport : a.dropWhile (· ≠ 58) with
    | nil =>
      rw [hport,List.append_nil] at hsplit
      exact .inl (hsplit ▸ h.1)
    | cons c port =>
      have hc : c = 58 := by
        have hhead := List.head?_dropWhile_not (· ≠ 58) a
        rw [hport] at hhead
        simpa using hhead
      subst hc
      rw [hport] at h hsplit
      exact .inr ⟨_,port,hsplit.symm,h⟩
  · have hcut : ∀ {name : PyStr}, plainName name = true → ∀ c ∈ name, (decide (c ≠ 58)) = true := fun hname c hc =>
      decide_eq_true (fun h => colon_not_mem_plainName hname (h ▸ hc))
    rintro (hname | ⟨name,port,rfl,hname,hport⟩)
    · rw [plainAuthority,List.takeWhile_eq_self_iff.mpr (hcut hname),List.dropWhile_eq_nil_iff.mpr (hcut hname),hname]
      rfl
    · rw [plainAuthority,List.takeWhile_append_of_pos (hcut hname),List.dropWhile_append_of_pos (hcut hname)]
      simp [hname,hport]

section PlainAuthority
variable {a : PyStr} (h : plainAuthority a = true)
include h

theorem mem_plainAuthority {c : CodePoint} (hc : c ∈ a) : authorityChar c = true := by
  rcases (plainAuthority_iff a).mp h with hname | ⟨name,port,rfl,hname,hport⟩
  · exact authorityChar_of_name (mem_plainName hname hc)
  · rcases List.mem_append.mp hc with hc | hc
    · exact authorityChar_of_name (mem_plainName hname hc)
    · rcases List.mem_cons.mp hc with rfl | hc
      · rfl
      · simp [authorityChar,mem_plainPort hport hc]

theorem slash_not_mem_plainAuthority : 47 ∉ a := fun hc =>
  absurd (mem_plainAuthority h hc) (by decide)

theorem plainAuthority_head : a.head? ≠ some 46 := by
  have hfirst : ∀ {name : PyStr}, plainName name = true → ∃ c x, name = c :: x ∧ lower c = true := by
    intro name hname
    cases name with
    | nil => exact absurd hname (by decide)
    | cons c x =>
      simp only [plainName,Bool.and_eq_true] at hname
      exact ⟨c,x,rfl,by simpa using hname.1.1⟩
  rcases (plainAuthority_iff a).mp h with hname | ⟨name,port,rfl,hname,-⟩
  · obtain ⟨c,x,rfl,hc⟩ := hfirst hname
    intro hdot
    rw [Option.some.inj hdot] at hc
    exact absurd hc (by decide)
  · obtain ⟨c,x,rfl,hc⟩ := hfirst hname
    intro hdot
    rw [Option.some.inj hdot] at hc
    exact absurd hc (by decide)

theorem plainAuthority_ne_nil : a ≠ [] := by
  rintro rfl
  exact absurd h (by decide)

/-- It does not end in a colon. -/
theorem plainAuthority_getLast : a.getLast? ≠ some 58 := by
  intro hlast
  rcases (plainAuthority_iff a).mp h with hname | ⟨name,port,rfl,-,hport⟩
  · exact colon_not_mem_plainName hname (List.mem_of_getLast? hlast)
  · obtain ⟨c,port,rfl⟩ := List.exists_cons_of_ne_nil (plainPort_length hport).1
    rw [List.getLast?_append,List.getLast?_cons_cons,Option.or_of_isSome (by simp)] at hlast
    exact absurd (mem_plainPort hport (List.mem_of_getLast? hlast)) (by decide)

/-- A port in front of its end is at its end. -/
theorem ported_of_prefix {w v : PyStr} (heq : a = w ++ v) (hw : Ported w) : v = [] := by
  obtain ⟨x,-,port,hport,rfl⟩ := hw
  have hcolon : ∀ port ∈ ports, port = 58 :: port.tail ∧ port.tail.length = 5 := by decide
  obtain ⟨hcons,hlen⟩ := hcolon port hport
  rw [hcons,List.append_assoc,List.cons_append] at heq
  rcases (plainAuthority_iff a).mp h with hname | ⟨name,port',rfl,hname,hport'⟩
  · exact absurd (by rw [heq]; simp) (colon_not_mem_plainName hname)
  · obtain ⟨y,rfl,hy⟩ := append_of_not_mem (colon_not_mem_plainName hname) heq.symm
    cases y with
    | nil =>
      obtain rfl := (List.cons.inj hy).2
      have hle := (plainPort_length hport').2
      rw [List.length_append,hlen] at hle
      exact List.length_eq_zero_iff.mp (by omega)
    | cons c y =>
      obtain rfl := (List.cons.inj hy).2
      exact absurd (mem_plainPort hport' (by simp)) (by decide : ¬ digit 58 = true)

end PlainAuthority

/-! A browser that knows only plain hosts, and reads every path as it is written. -/

def readAuthority (t : PyStr) : Option (PyStr × PyStr) :=
  if plainAuthority (t.takeWhile authorityChar) then some (t.takeWhile authorityChar,t.dropWhile authorityChar) else none

def plainReader : UrlReader PyStr where
  host page := page
  read page url :=
    if py "https://" <+: url then readAuthority (url.drop 8)
    else if py "//" <+: url then readAuthority (url.drop 2)
    else some (page,url)
  rest r := r

theorem Ends.head {c : CodePoint} {x : PyStr} (h : Ends (c :: x)) : authorityChar c = false := by
  rw [Bool.eq_false_iff]
  intro hc
  have hrange : 46 ≤ c.val ∧ c.val ≠ 47 ∧ c.val ≠ 92 ∧ c.val ≠ 63 ∧ c.val ≠ 35 := by
    simp only [authorityChar,lower,digit,Bool.or_eq_true,Bool.and_eq_true,decide_eq_true_eq,Fin.ext_iff] at hc
    rcases hc with ((hc | hc) | hc) | hc
    · omega
    · omega
    · rw [hc]
      decide
    · rw [hc]
      decide
  have hfront := cleanedEnd_front (x := [c]) (by simp) (by simp [blank]; omega) x
  rw [Ends,← List.singleton_append,hfront] at h
  have hdelimiter : delimiter c = true := h
  simp only [delimiter,Bool.or_eq_true,decide_eq_true_eq,Fin.ext_iff] at hdelimiter
  rcases hdelimiter with ((h47 | h92) | h63) | h35
  · exact hrange.2.1 h47
  · exact hrange.2.2.1 h92
  · exact hrange.2.2.2.1 h63
  · exact hrange.2.2.2.2 h35

theorem readAuthority_append {a r : PyStr} (ha : ∀ c ∈ a, authorityChar c = true) (hr : Ends r) :
    readAuthority (a ++ r) = if plainAuthority a then some (a,r) else none := by
  have htake : r.takeWhile authorityChar = [] ∧ r.dropWhile authorityChar = r := by
    cases r with
    | nil => exact ⟨rfl,rfl⟩
    | cons c x => simp [hr.head]
  rw [readAuthority,List.takeWhile_append_of_pos ha,List.dropWhile_append_of_pos ha,htake.1,htake.2,List.append_nil]

private theorem plainReader_https (page t : PyStr) : plainReader.read page (py "https://" ++ t) = readAuthority t := by
  dsimp only [plainReader]
  rw [if_pos (List.prefix_append _ _)]
  rfl

private theorem not_https_slash (t : PyStr) : ¬ py "https://" <+: py "/" ++ t :=
  not_prefix_of_head (scheme_head _ (by decide)) (by decide) t

private theorem plainReader_slashes (page t : PyStr) : plainReader.read page (py "//" ++ t) = readAuthority t := by
  have hnot : ¬ py "https://" <+: py "//" ++ t := not_https_slash (py "/" ++ t)
  dsimp only [plainReader]
  rw [if_neg hnot,if_pos (List.prefix_append _ _)]
  rfl

theorem plainReader_standard : plainReader.Standard where
  https page a r ha hr := by
    rw [plainReader_https,readAuthority_append (fun c hc => mem_plainAuthority ha hc) hr,if_pos ha]
    rfl
  slashes page a r ha hr := by
    rw [plainReader_slashes,readAuthority_append (fun c hc => mem_plainAuthority ha hc) hr,if_pos ha]
    rfl
  slash page url hslash hsingle := by
    obtain ⟨t,rfl⟩ := hslash
    have hnot : ¬ py "//" <+: py "/" ++ t := by
      rintro ⟨x,hx⟩
      rw [← hx] at hsingle
      exact hsingle.1 ⟨cleanedEnd x,(cleaned_front (by decide) (by simp [blank,py]) x).symm⟩
    dsimp only [plainReader]
    rw [if_neg (not_https_slash t),if_neg hnot]
  port page name port r hname hport hdigits hr := by
    have hform : name ++ 58 :: (port ++ r) = (name ++ 58 :: port) ++ r := by simp
    have hchars : ∀ c ∈ name ++ 58 :: port, authorityChar c = true := by
      intro c hc
      rcases List.mem_append.mp hc with hc | hc
      · exact authorityChar_of_name (mem_plainName hname hc)
      · rcases List.mem_cons.mp hc with rfl | hc
        · rfl
        · exact hport c hc
    have hplain : plainAuthority (name ++ 58 :: port) ≠ true := by
      intro h
      rcases (plainAuthority_iff _).mp h with hname' | ⟨name',port',heq,hname',hport'⟩
      · exact colon_not_mem_plainName hname' (by simp)
      · obtain ⟨-,rfl⟩ := (append_sep_inj (colon_not_mem_plainName hname) (colon_not_mem_plainName hname')).mp heq
        rw [List.all_eq_true.mpr (fun c hc => mem_plainPort hport' hc)] at hdigits
        cases hdigits
    rw [plainReader_https,hform,readAuthority_append hchars hr,if_neg hplain]
  literal _ := rfl

end Thintuit.Client
