import Thintuit.Client.Interceptor

/-! The places of a text around the URLs with a port: what the rewriting of ports does to the
text before such a place and behind it, whatever host it puts in. -/
namespace Thintuit.Client
open Server Text

def devHost : PyStr := py "dev.thintuit.com"

theorem apiHost_eq : apiHost = devHost ++ py ":41285" := by decide

/-- The text with every URL that has one of the ports sent to the host. -/
abbrev portsTo (host url : PyStr) : PyStr := replaceAll portUrl (py "https://" ++ host) url

/-! What comes before the next slash. -/

def Ahead (word s : PyStr) : Prop := ∃ y z, s = y ++ (word ++ z) ∧ 47 ∉ y

def PortAhead (s : PyStr) : Prop := ∃ port ∈ ports, Ahead port s

theorem Ahead.append_left {word s : PyStr} (h : Ahead word s) {y : PyStr} (hy : 47 ∉ y) : Ahead word (y ++ s) := by
  obtain ⟨y',z,rfl,hy'⟩ := h
  exact ⟨y ++ y',z,by simp,List.not_mem_append hy hy'⟩

theorem ahead_slash_iff {word v : PyStr} (hword : 47 ∉ word) (hv : 47 ∉ v) (x : PyStr) :
    Ahead word (v ++ 47 :: x) ↔ word <:+: v := by
  constructor
  · rintro ⟨y,z,h,hy⟩
    rw [← List.append_assoc] at h
    obtain ⟨v',rfl,-⟩ := append_of_not_mem (List.not_mem_append hy hword) h
    exact List.infix_append' y word v' |>.trans (by simp)
  · rintro ⟨y,z,rfl⟩
    exact ⟨y,z ++ 47 :: x,by simp,fun hy => hv (by simp [hy])⟩

theorem PortAhead.append_left {s : PyStr} (h : PortAhead s) {y : PyStr} (hy : 47 ∉ y) : PortAhead (y ++ s) := by
  obtain ⟨port,hport,hahead⟩ := h
  exact ⟨port,hport,hahead.append_left hy⟩

theorem portAhead_slash_iff {v : PyStr} (hv : 47 ∉ v) (x : PyStr) :
    PortAhead (v ++ 47 :: x) ↔ ∃ port ∈ ports, port <:+: v :=
  exists_congr (fun port => and_congr_right (fun hport => ahead_slash_iff (slash_not_mem_ports port hport) hv x))

/-- A port has its colon in front only. -/
private theorem colon_of_mem_ports {port : PyStr} (h : port ∈ ports) :
    ∃ digits, port = 58 :: digits ∧ 58 ∉ digits ∧ digits.length = 5 := by
  simp only [ports,List.mem_cons,List.not_mem_nil,or_false] at h
  rcases h with rfl | rfl
  · exact ⟨py "41284",rfl,by decide,rfl⟩
  · exact ⟨py "41285",rfl,by decide,rfl⟩

/-- A port that ends behind another one lies wholly behind it. -/
private theorem port_after_port {x x' y port port' : PyStr} (hport : port ∈ ports) (hport' : port' ∈ ports)
    (h : x ++ port = x' ++ port' ++ y) : y = [] ∨ ∃ v, y = v ++ port := by
  obtain ⟨digits,rfl,hcolon,hlen⟩ := colon_of_mem_ports hport
  obtain ⟨digits',rfl,hcolon',hlen'⟩ := colon_of_mem_ports hport'
  have hsplit : x' ++ 58 :: (digits' ++ y) = (x ++ [58]) ++ digits := by
    rw [List.append_assoc,List.singleton_append,h]
    simp
  obtain ⟨u,hu,hx⟩ := append_of_not_mem_right hcolon hsplit
  rcases List.eq_nil_or_concat u with rfl | ⟨u,c,rfl⟩
  · left
    have := congrArg List.length hu
    simp only [List.length_append,List.length_nil] at this
    exact List.length_eq_zero_iff.mp (by omega)
  · right
    rw [List.concat_eq_append,← List.cons_append,← List.append_assoc] at hx
    obtain rfl : 58 = c := by simpa using (List.append_inj' hx rfl).2
    rw [List.concat_eq_append,List.append_assoc,List.singleton_append] at hu
    obtain ⟨v,-,rfl⟩ := append_of_not_mem hcolon' hu.symm
    exact ⟨v,rfl⟩

/-- The match ends at a port, and no other port comes before the next slash. -/
theorem afterPort_iff (t r : PyStr) :
    afterPort t = some r ↔ ∃ w, t = w ++ r ∧ Ported w ∧ 47 ∉ w ∧ ¬ PortAhead r := by
  constructor
  · intro h
    obtain ⟨w,rfl,hw,hslash,hlast⟩ := afterPort_eq_some h
    refine ⟨w,rfl,hw,hslash,?_⟩
    rintro ⟨port,hport,y,z,rfl,hy⟩
    have hne : w ++ y ≠ [] := fun hnil => absurd hw.length (by simp [(List.append_eq_nil_iff.mp hnil).1])
    have hlen := hlast (w ++ y ++ port) z (by simp) ⟨w ++ y,hne,port,hport,rfl⟩
      (List.not_mem_append (List.not_mem_append hslash hy) (slash_not_mem_ports port hport))
    rw [List.length_append,List.length_append,length_of_mem_ports port hport] at hlen
    omega
  · rintro ⟨w,rfl,hw,hslash,hno⟩
    obtain ⟨r',hr'⟩ := Option.isSome_iff_exists.mp (afterPort_isSome hw hslash r)
    obtain ⟨w',heq,⟨x',-,port',hport',rfl⟩,hslash',hlast⟩ := afterPort_eq_some hr'
    obtain ⟨y,hy⟩ : w <+: x' ++ port' :=
      List.prefix_of_prefix_length_le (List.prefix_append w r) (heq ▸ List.prefix_append _ r') (hlast w r rfl hw hslash)
    obtain rfl : r = y ++ r' := by
      rw [← hy,List.append_assoc] at heq
      exact List.append_cancel_left heq
    obtain ⟨x,-,port,hport,rfl⟩ := hw
    rcases port_after_port hport' hport hy.symm with rfl | ⟨v,rfl⟩
    · exact hr'
    · refine absurd ⟨port',hport',v,r',by simp,fun hv => hslash' ?_⟩ hno
      rw [← hy]
      simp [hv]

/-- A URL with one of the ports begins the text. -/
def PortUrlAt (t : PyStr) : Prop := ∃ scheme w b, t = scheme ++ (w ++ b) ∧ scheme ∈ schemes ∧ Ported w ∧ 47 ∉ w

theorem portUrl_iff (s r : PyStr) :
    portUrl s = some r ↔ ∃ scheme w, s = scheme ++ (w ++ r) ∧ scheme ∈ schemes ∧ Ported w ∧ 47 ∉ w ∧ ¬ PortAhead r := by
  constructor
  · intro h
    obtain ⟨scheme,hscheme,t,rfl,ht⟩ := portUrl_eq_some h
    obtain ⟨w,rfl,hw⟩ := (afterPort_iff t r).mp ht
    exact ⟨scheme,w,rfl,hscheme,hw⟩
  · rintro ⟨scheme,w,rfl,hscheme,hw⟩
    rw [portUrl_scheme hscheme,afterPort_iff]
    exact ⟨w,rfl,hw⟩

theorem portUrl_eq_none_iff (t : PyStr) : portUrl t = none ↔ ¬ PortUrlAt t := by
  constructor
  · rintro h ⟨scheme,w,b,rfl,hscheme,hw,hslash⟩
    rw [portUrl_scheme hscheme] at h
    exact afterPort_ne_none hw hslash b h
  · intro h
    cases hm : portUrl t with
    | none => rfl
    | some r =>
      obtain ⟨scheme,w,rfl,hscheme,hw,hslash,-⟩ := (portUrl_iff t r).mp hm
      exact absurd ⟨scheme,w,r,rfl,hscheme,hw,hslash⟩ h

/-! Letters that no scheme has. -/

theorem not_mem_scheme {d : CodePoint} (hd : d ∉ py "https://") {scheme : PyStr} (h : scheme ∈ schemes) : d ∉ scheme := by
  have hsub : List.Sublist (py "http://") (py "https://") := by decide
  rcases (mem_schemes_iff scheme).mp h with rfl | rfl
  · exact hd
  · exact fun hmem => hd (hsub.subset hmem)

theorem slash_mem_scheme : ∀ scheme ∈ schemes, 47 ∈ scheme := by decide

/-- A text without a slash that ends in a foreign letter does not begin as a scheme does. -/
theorem scheme_apart {d : CodePoint} (hd : d ∉ py "https://") {v : PyStr} (hv : 47 ∉ v) {scheme : PyStr}
    (h : scheme ∈ schemes) (x y : PyStr) : v ++ d :: x ≠ scheme ++ y := by
  intro heq
  obtain ⟨v',rfl,-⟩ := append_of_not_mem (not_mem_scheme hd h) heq
  exact hv (List.mem_append_left _ (slash_mem_scheme scheme h))

theorem digit_of_ported {w : PyStr} (h : Ported w) : ∃ v d, w = v ++ [d] ∧ d ∉ py "https://" := by
  obtain ⟨x,-,port,hport,rfl⟩ := h
  simp only [ports,List.mem_cons,List.not_mem_nil,or_false] at hport
  rcases hport with rfl | rfl
  · exact ⟨x ++ py ":4128",52,by rw [List.append_assoc]; rfl,by decide⟩
  · exact ⟨x ++ py ":4128",53,by rw [List.append_assoc]; rfl,by decide⟩

/-- A URL with a port does not begin inside a text that has no slash and ends in a foreign letter. -/
theorem portUrlAt_behind {v : PyStr} {d : CodePoint} (hd : d ∉ py "https://") (hv : 47 ∉ v) {r t : PyStr}
    (ht : PortUrlAt t) (hsuffix : t <:+ v ++ d :: r) : t <:+ r := by
  obtain ⟨scheme,w,b,rfl,hscheme,-,-⟩ := ht
  obtain ⟨front,hfront⟩ := hsuffix
  have hsplit : front ++ (scheme ++ (w ++ b)) = (v ++ [d]) ++ r := by rw [hfront]; simp
  rcases List.append_eq_append_iff.mp hsplit with ⟨u,hu,hr⟩ | ⟨u,hu,hr⟩
  · rcases List.eq_nil_or_concat u with rfl | ⟨u,e,rfl⟩
    · rw [List.nil_append] at hr
      exact hr ▸ List.suffix_refl _
    · rw [List.concat_eq_append,← List.append_assoc] at hu
      obtain ⟨rfl,he⟩ := List.append_inj' hu rfl
      obtain rfl : d = e := by simpa using he
      have hu' : 47 ∉ u := fun hmem => hv (List.mem_append_right front hmem)
      rw [List.concat_eq_append,List.append_assoc,List.singleton_append] at hr
      exact absurd hr.symm (scheme_apart hd hu' hscheme r (w ++ b))
  · exact ⟨u,hr.symm⟩

/-! The rewriting. -/

section Rewriting
variable (host : PyStr)

theorem portsTo_match {s r : PyStr} (h : portUrl s = some r) :
    portsTo host s = py "https://" ++ (host ++ portsTo host r) := by
  rw [← List.append_assoc]
  exact replaceAll_match portUrl_proper h

theorem portsTo_slash (s : PyStr) : portsTo host (47 :: s) = 47 :: portsTo host s := replaceAll_slash _ s

theorem portsTo_https_of_none {t : PyStr} (h : afterPort t = none) :
    portsTo host (py "https://" ++ t) = py "https://" ++ portsTo host t :=
  replaceAll_https _ h

theorem portsTo_https_of_some {t r : PyStr} (h : afterPort t = some r) :
    portsTo host (py "https://" ++ t) = py "https://" ++ (host ++ portsTo host r) :=
  portsTo_match host ((portUrl_https t).trans h)

theorem portsTo_of_none {s : PyStr} (h : ∀ t, t <:+ s → ¬ PortUrlAt t) : portsTo host s = s :=
  replaceAll_of_no_match (fun t ht => (portUrl_eq_none_iff t).mpr (h t ht))

/-- Text without the letter h stays in front. -/
theorem portsTo_front {front : PyStr} (h : 104 ∉ front) (s : PyStr) : portsTo host (front ++ s) = front ++ portsTo host s := by
  refine replaceAll_append front s (fun t ht hne => ?_)
  obtain ⟨c,t,rfl⟩ := List.exists_cons_of_ne_nil hne
  exact portUrl_cons (ne_of_mem_of_not_mem (ht.subset List.mem_cons_self) h) (t ++ s)

private theorem prefix_key_iff {key y : PyStr} (hy : ¬ key <:+: y) (s : PyStr) : y <+: key ++ s ↔ y <+: key := by
  refine ⟨fun h => ?_,fun h => h.trans (List.prefix_append key s)⟩
  refine List.prefix_of_prefix_length_le h (List.prefix_append key s) (Nat.le_of_not_lt (fun hlt => hy ?_))
  exact (List.prefix_of_prefix_length_le (List.prefix_append key s) h (by omega)).isInfix

/-- Matches and what is put in their place begin alike. -/
theorem prefix_portsTo_iff {x : PyStr} (hx : ¬ py "htt" <:+: x) (s : PyStr) : x <+: portsTo host s ↔ x <+: s := by
  refine prefix_replaceAll_iff portUrl_proper (fun y hy s r hm t => ?_) s
  have hy' : ¬ py "htt" <:+: y := fun h => hx (h.trans hy.isInfix)
  have hkey : ∀ scheme ∈ schemes, py "htt" <+: scheme := by decide
  obtain ⟨scheme,hscheme,u,rfl,-⟩ := portUrl_eq_some hm
  obtain ⟨v,rfl⟩ := hkey scheme hscheme
  have hrep : py "https://" ++ host ++ t = py "htt" ++ (py "ps://" ++ host ++ t) := rfl
  rw [hrep,List.append_assoc (py "htt") v u,prefix_key_iff hy',prefix_key_iff hy']

theorem prefix_portsTo_of_none {c : CodePoint} {x s : PyStr} (hx : ¬ py "htt" <:+: x) (hs : portUrl s = none)
    (h : c :: x <+: portsTo host s) : c :: x <+: s := by
  cases s with
  | nil => exact h
  | cons d cs =>
    have hskip : portsTo host (d :: cs) = d :: portsTo host cs := replaceAll_cons hs
    rw [hskip,List.cons_prefix_cons,prefix_portsTo_iff host hx] at h
    rwa [List.cons_prefix_cons]

/-- So do texts without a slash that end in a foreign letter. -/
theorem prefix_portsTo_iff_of_foreign {y : PyStr} {d : CodePoint} (hd : d ∉ py "https://") (hy : 47 ∉ y) (s : PyStr) :
    y ++ [d] <+: portsTo host s ↔ y ++ [d] <+: s := by
  refine prefix_replaceAll_iff portUrl_proper (fun u hu s r hm t => ?_) s
  rcases List.eq_nil_or_concat u with rfl | ⟨v,e,rfl⟩
  · simp
  rw [List.concat_eq_append] at hu ⊢
  obtain ⟨x,hx⟩ := hu
  rw [← List.append_assoc] at hx
  obtain ⟨rfl,he⟩ := List.append_inj' hx rfl
  obtain rfl : e = d := by simpa using he
  have hv : 47 ∉ v := fun hmem => hy (List.mem_append_right x hmem)
  obtain ⟨scheme,hscheme,w,rfl,-⟩ := portUrl_eq_some hm
  refine iff_of_false ?_ ?_
  · rintro ⟨z,hz⟩
    rw [List.append_assoc,List.append_assoc] at hz
    exact scheme_apart hd hv (by decide) z (host ++ t) hz
  · rintro ⟨z,hz⟩
    rw [List.append_assoc] at hz
    exact scheme_apart hd hv hscheme z w hz

theorem portAhead_portsTo_iff (s : PyStr) : PortAhead (portsTo host s) ↔ PortAhead s := by
  have hport : ∀ port ∈ ports, ∀ y, (∃ z, portsTo host s = y ++ (port ++ z)) ∧ 47 ∉ y ↔
      (∃ z, s = y ++ (port ++ z)) ∧ 47 ∉ y := by
    intro port hport y
    refine and_congr_left (fun hy => ?_)
    obtain ⟨v,d,hvd,hd⟩ := digit_of_ported (w := 0 :: (y ++ port)) ⟨0 :: y,by simp,port,hport,rfl⟩
    have hends : ∃ u, y ++ port = u ++ [d] := by
      cases v with
      | nil => exact absurd (congrArg List.length hvd) (by simp [length_of_mem_ports port hport])
      | cons c v => exact ⟨v,(List.cons.inj hvd).2⟩
    obtain ⟨u,hu⟩ := hends
    have hslash : 47 ∉ u := by
      have hno : 47 ∉ y ++ port := List.not_mem_append hy (slash_not_mem_ports port hport)
      exact fun hmem => hno (hu ▸ List.mem_append_left _ hmem)
    have hiff := prefix_portsTo_iff_of_foreign host hd hslash s
    rw [← hu] at hiff
    have hform : ∀ s : PyStr, y ++ port <+: s ↔ ∃ z, s = y ++ (port ++ z) := by
      intro s
      exact exists_congr (fun z => by rw [List.append_assoc,eq_comm])
    rw [← hform,← hform,hiff]
  constructor
  · rintro ⟨port,hmem,y,z,hz,hy⟩
    obtain ⟨⟨z',hz'⟩,-⟩ := (hport port hmem y).mp ⟨⟨z,hz⟩,hy⟩
    exact ⟨port,hmem,y,z',hz',hy⟩
  · rintro ⟨port,hmem,y,z,hz,hy⟩
    obtain ⟨⟨z',hz'⟩,-⟩ := (hport port hmem y).mpr ⟨⟨z,hz⟩,hy⟩
    exact ⟨port,hmem,y,z',hz',hy⟩

/-- Every URL with a port is rewritten, wherever it stands. -/
theorem portsTo_of_suffix {s t r : PyStr} (hsuffix : t <:+ s) (ht : portUrl t = some r) :
    ∃ c, portsTo host s = c ++ (py "https://" ++ (host ++ portsTo host r)) := by
  induction s using scan_induction portUrl_proper with
  | nil =>
    rw [List.suffix_nil.mp hsuffix] at ht
    cases ht
  | skip c cs hm ih =>
    rcases List.suffix_cons_iff.mp hsuffix with rfl | hsuffix
    · rw [hm] at ht
      cases ht
    · obtain ⟨a,ha⟩ := ih hsuffix
      exact ⟨c :: a,(replaceAll_cons hm).trans (congrArg (c :: ·) ha)⟩
  | step s r' hm ih =>
    by_cases hst : t = s
    · subst hst
      exact ⟨[],portsTo_match host ht⟩
    · obtain ⟨scheme,w,rfl,hscheme,hw,hslash,-⟩ := (portUrl_iff s r').mp hm
      obtain ⟨scheme',w',htw,hscheme',hw',hslash',-⟩ := (portUrl_iff t r).mp ht
      have hat : PortUrlAt t := ⟨scheme',w',r,htw,hscheme',hw',hslash'⟩
      -- it begins with an h, and behind its first letter the scheme has none
      have hbehind : t <:+ w ++ r' := by
        obtain ⟨front,hfront⟩ := hsuffix
        rw [(scheme_eq scheme hscheme).1] at hfront
        cases front with
        | nil =>
          rw [List.nil_append,← (scheme_eq scheme hscheme).1] at hfront
          exact absurd hfront hst
        | cons c front =>
          have hrest := (List.cons.inj hfront).2
          rw [htw,(scheme_eq scheme' hscheme').1,List.cons_append] at hrest
          obtain ⟨front,-,hwr⟩ := append_of_not_mem (scheme_eq scheme hscheme).2 hrest
          rw [htw,(scheme_eq scheme' hscheme').1,hwr]
          exact List.suffix_append _ _
      obtain ⟨v,d,rfl,hd⟩ := digit_of_ported hw
      rw [List.append_assoc,List.singleton_append] at hbehind
      obtain ⟨a,ha⟩ := ih (portUrlAt_behind hd (fun hmem => hslash (List.mem_append_left _ hmem)) hat hbehind)
      exact ⟨py "https://" ++ (host ++ a),by rw [portsTo_match host hm,ha]; simp⟩

/-- The number of slashes stays. -/
theorem count_slash_portsTo (hhost : 47 ∉ host) (s : PyStr) : (portsTo host s).count 47 = s.count 47 := by
  refine count_replaceAll_eq portUrl_proper (fun w r hm => ?_) s
  obtain ⟨scheme,v,hs,hscheme,-,hslash,-⟩ := (portUrl_iff _ _).mp hm
  have hw : w = scheme ++ v := by
    rw [← List.append_assoc] at hs
    exact List.append_cancel_right hs
  have htwo : ∀ scheme ∈ schemes, scheme.count 47 = 2 := by decide
  rw [hw,List.count_append,List.count_append,htwo scheme hscheme,htwo (py "https://") (by decide),
    List.count_eq_zero_of_not_mem hhost,List.count_eq_zero_of_not_mem hslash]

end Rewriting

/-! Places inside the host of a URL. -/

/-- What stands here belongs to the part of a URL between its scheme and its path. -/
def InHost (front : PyStr) : Prop := ∃ a scheme w, front = a ++ (scheme ++ w) ∧ scheme ∈ schemes ∧ 47 ∉ w

theorem InHost.append_left {front : PyStr} (h : InHost front) (x : PyStr) : InHost (x ++ front) := by
  obtain ⟨a,scheme,w,rfl,hscheme,hw⟩ := h
  exact ⟨x ++ a,scheme,w,by simp,hscheme,hw⟩

theorem InHost.length {front : PyStr} (h : InHost front) : 7 ≤ front.length := by
  obtain ⟨a,scheme,w,rfl,hscheme,-⟩ := h
  have hlen : ∀ scheme ∈ schemes, 7 ≤ scheme.length := by decide
  have := hlen scheme hscheme
  simp only [List.length_append]
  omega

/-- A scheme ends in a slash. -/
private theorem scheme_slash {scheme : PyStr} (h : scheme ∈ schemes) : ∃ rest, scheme = rest ++ [47] := by
  rcases (mem_schemes_iff scheme).mp h with rfl | rfl
  · exact ⟨py "https:/",rfl⟩
  · exact ⟨py "http:/",rfl⟩

theorem inHost_append_iff {x : PyStr} (hx : 47 ∉ x) (front : PyStr) : InHost (front ++ x) ↔ InHost front := by
  constructor
  · rintro ⟨a,scheme,w,h,hscheme,hw⟩
    obtain ⟨rest,rfl⟩ := scheme_slash hscheme
    have hsplit : (a ++ rest) ++ 47 :: w = front ++ x := by rw [h]; simp
    obtain ⟨w',rfl,rfl⟩ := append_of_not_mem_right hx hsplit
    exact ⟨a,rest ++ [47],w',by simp,hscheme,fun hmem => hw (List.mem_append_left _ hmem)⟩
  · rintro ⟨a,scheme,w,rfl,hscheme,hw⟩
    exact ⟨a,scheme,w ++ x,by simp,hscheme,List.not_mem_append hw hx⟩

/-- If a slash comes after it, a foreign letter and all before it do not matter. -/
theorem inHost_behind_iff {d : CodePoint} (hd : d ∉ py "https://") {u : PyStr} (hu : 47 ∈ u) (x : PyStr) :
    InHost (x ++ d :: u) ↔ InHost u := by
  constructor
  · rintro ⟨a,scheme,w,h,hscheme,hw⟩
    rw [← List.append_assoc] at h
    rcases List.append_eq_append_iff.mp h with ⟨v,hv,hvw⟩ | ⟨v,-,rfl⟩
    · cases v with
      | nil =>
        rw [List.nil_append] at hvw
        exact absurd (List.mem_cons_of_mem d hu) (hvw ▸ hw)
      | cons c v =>
        obtain ⟨rfl,rfl⟩ := List.cons.inj hvw
        obtain ⟨v',rfl,-⟩ := append_of_not_mem_right (not_mem_scheme hd hscheme) hv.symm
        exact ⟨v',scheme,w,by simp,hscheme,hw⟩
    · exact absurd (by simp [hu]) hw
  · intro h
    have := h.append_left (x ++ [d])
    simpa using this

/-- The part of a scheme that the first step of the wrappers changes. -/
def schemeNames : List PyStr := [py "https:",py "http:"]

theorem schemeName_eq : ∀ name ∈ schemeNames, name = 104 :: name.tail ∧ 104 ∉ name.tail := by decide

theorem schemeName_colon : ∀ name ∈ schemeNames, name = name.dropLast ++ [58] ∧ 58 ∉ name.dropLast := by decide

theorem schemeName_slashes : ∀ name ∈ schemeNames, name ++ py "//" ∈ schemes := by decide

theorem slash_not_mem_schemeName : ∀ name ∈ schemeNames, 47 ∉ name := by decide

theorem dataHost_schemeName_iff {name : PyStr} (hname : name ∈ schemeNames) (t : PyStr) :
    dataHost <:+: name ++ t ↔ dataHost <:+: t := by
  have hletter : ∀ name ∈ schemeNames, 100 ∉ name := by decide
  exact dataHost_front_iff (hletter name hname) t

/-- Behind the name of a scheme at the start, it does not matter which one it is. -/
theorem inHost_schemeName_iff {name : PyStr} (hname : name ∈ schemeNames) (f : PyStr) :
    InHost (name ++ f) ↔ (∃ w, f = py "//" ++ w ∧ 47 ∉ w) ∨ InHost f := by
  have hschemes : ∀ scheme ∈ schemes, scheme = scheme.takeWhile (· ≠ 58) ++ 58 :: py "//" ∧ 58 ∉ scheme.takeWhile (· ≠ 58) := by
    decide
  obtain ⟨hcons,hno⟩ := schemeName_eq name hname
  obtain ⟨hcolon,hfront⟩ := schemeName_colon name hname
  constructor
  · rintro ⟨a,scheme,w,h,hmem,hw⟩
    cases a with
    | nil =>
      left
      obtain ⟨heq,hcolon'⟩ := hschemes scheme hmem
      rw [hcolon,heq,List.nil_append,List.append_assoc,List.append_assoc] at h
      exact ⟨w,((append_sep_inj hfront hcolon').mp h).2,hw⟩
    | cons c a =>
      right
      rw [hcons] at h
      have htail := (List.cons.inj h).2
      rw [(scheme_eq scheme hmem).1,List.cons_append] at htail
      obtain ⟨a',-,rfl⟩ := append_of_not_mem hno htail.symm
      have hform : 104 :: (scheme.tail ++ w) = scheme ++ w := by rw [← List.cons_append,← (scheme_eq scheme hmem).1]
      exact ⟨a',scheme,w,by rw [hform],hmem,hw⟩
  · rintro (⟨w,rfl,hw⟩ | h)
    · exact ⟨[],name ++ py "//",w,by simp,schemeName_slashes name hname,hw⟩
    · exact h.append_left name

private theorem last_slash_behind {w : PyStr} (hw : Ported w) {x u : PyStr} (h : [47] <:+ x ++ (w ++ u)) : [47] <:+ u := by
  rcases List.eq_nil_or_concat u with rfl | ⟨u,e,rfl⟩
  · obtain ⟨v,e,rfl,he⟩ := digit_of_ported hw
    obtain ⟨y,hy⟩ := h
    rw [List.append_nil,← List.append_assoc] at hy
    obtain rfl : 47 = e := by simpa using (List.append_inj' hy rfl).2
    exact absurd (by decide) he
  · obtain ⟨y,hy⟩ := h
    rw [List.concat_eq_append] at hy ⊢
    rw [← List.append_assoc w,← List.append_assoc x] at hy
    obtain rfl : 47 = e := by simpa using (List.append_inj' hy rfl).2
    exact List.suffix_append u [47]

/-- At a place that is not in front of the port of a URL, the text can be cut: the rewriting of
what follows does not depend on what came before. -/
theorem portsTo_cut (host : PyStr) {front back : PyStr} {d : CodePoint} (hd : d ∉ py "https://")
    (hports : ∀ port ∈ ports, d ∉ port) (hhead : back.head? = some d) (h : ¬ (InHost front ∧ PortAhead back)) :
    ∃ c, portsTo host (front ++ back) = c ++ portsTo host back ∧ (47 ∈ front → 47 ∈ c) ∧ ([47] <:+ front → [47] <:+ c) := by
  obtain ⟨rest,rfl⟩ : ∃ rest, back = d :: rest := by
    cases back with
    | nil => cases hhead
    | cons c rest => exact ⟨rest,by rw [Option.some.inj hhead]⟩
  generalize hs : front ++ d :: rest = s
  induction s using scan_induction portUrl_proper generalizing front with
  | nil => simp at hs
  | skip c cs hm ih =>
    rcases front with _ | ⟨c',_ | ⟨e,front⟩⟩
    · exact ⟨[],by rw [← hs]; rfl,by simp,by simp⟩
    · obtain ⟨rfl,rfl⟩ := List.cons.inj hs
      exact ⟨[c'],replaceAll_cons hm,id,id⟩
    · obtain ⟨rfl,rfl⟩ := List.cons.inj hs
      obtain ⟨a,ha,hmem,hends⟩ := ih (fun hh => h ⟨hh.1.append_left [c'],hh.2⟩) rfl
      refine ⟨c' :: a,(replaceAll_cons hm).trans (congrArg (c' :: ·) ha),fun hslash => ?_,fun hslash => ?_⟩
      · rcases List.mem_cons.mp hslash with rfl | hslash
        · exact List.mem_cons_self
        · exact List.mem_cons_of_mem _ (hmem hslash)
      · rcases List.suffix_cons_iff.mp hslash with heq | hslash
        · exact absurd (List.cons.inj heq).2 (by simp)
        · exact (hends hslash).trans (List.suffix_cons _ _)
  | step s r hm ih =>
    obtain ⟨scheme,w,rfl,hscheme,hw,hslash,-⟩ := (portUrl_iff s r).mp hm
    obtain ⟨front,rfl,hwr⟩ := append_of_not_mem (not_mem_scheme hd hscheme) hs
    have hplace : (∃ u, front = w ++ u ∧ u ++ d :: rest = r) ∨ ∃ u, w = front ++ d :: u ∧ d :: rest = d :: u ++ r := by
      rcases List.append_eq_append_iff.mp hwr with ⟨u,hu,hr⟩ | ⟨u,hu,hr⟩
      · exact .inl ⟨u,hu,hr.symm⟩
      · cases u with
        | nil => exact .inl ⟨[],by simpa using hu.symm,hr⟩
        | cons e u =>
          obtain ⟨rfl,-⟩ := List.cons.inj hr
          exact .inr ⟨u,hu,hr⟩
    rcases hplace with ⟨u,rfl,hu⟩ | ⟨u,rfl,hu⟩
    · -- behind the match
      have hnot : ¬ (InHost u ∧ PortAhead (d :: rest)) := fun hh => h ⟨(hh.1.append_left w).append_left scheme,hh.2⟩
      obtain ⟨a,ha,-,hends⟩ := ih hnot hu
      refine ⟨py "https://" ++ (host ++ a),by rw [portsTo_match host hm,ha]; simp,fun _ => ?_,fun hlast => ?_⟩
      · exact List.mem_append_left _ (by decide)
      · exact ((hends (last_slash_behind hw hlast)).trans (List.suffix_append host a)).trans (List.suffix_append _ _)
    · -- inside it, before its port
      rw [List.mem_append,not_or] at hslash
      obtain ⟨x,-,port,hport,hx⟩ := hw
      obtain ⟨v,rfl,-⟩ := append_of_not_mem_right (hports port hport) hx
      have hahead : Ahead port (d :: rest) :=
        ⟨d :: v,r,by rw [hu]; simp,fun hmem => hslash.2 (List.mem_append_left port hmem)⟩
      exact absurd ⟨⟨[],scheme,front,rfl,hscheme,hslash.1⟩,port,hport,hahead⟩ h

end Thintuit.Client
