import Thintuit.Client.Twice

/-! Texts that the two wrappers make of a URL, behind a URL with a port and behind the data host:
they end differently. -/
namespace Thintuit.Client
open Server Text

theorem openUrl_eq (url : PyStr) : openUrl url = portsTo devHost (secureUrl url) := by
  have horigin : py "https://dev.thintuit.com" = py "https://" ++ devHost := by decide
  rw [openUrl,rewritePorts_eq,horigin]

theorem ends_apart {host : PyStr} (h : host ∈ [devHost,dataHost]) (c c' r : PyStr) :
    c ++ (apiHost ++ r) ≠ c' ++ (host ++ r) := by
  have hlast : ∀ host ∈ [devHost,dataHost], host = host.dropLast ++ [109] := by decide
  rw [apiHost_last,hlast host h,← List.append_assoc,← List.append_assoc c']
  intro heq
  have hfront := List.append_cancel_right heq
  rw [← List.append_assoc,← List.append_assoc] at hfront
  exact absurd (List.append_inj' hfront rfl).2 (by decide)

def PortUrlIn (s : PyStr) : Prop := ∃ t, t <:+ s ∧ PortUrlAt t

theorem not_portUrlIn_iff (s : PyStr) : ¬ PortUrlIn s ↔ ∀ t, t <:+ s → ¬ PortUrlAt t := by
  simp [PortUrlIn]

theorem portsTo_of_not_in (host : PyStr) {s : PyStr} (h : ¬ PortUrlIn s) : portsTo host s = s :=
  portsTo_of_none host ((not_portUrlIn_iff s).mp h)

/-- Behind its last URL with a port, a text is the same whatever host is put in. -/
theorem exists_last_portUrl {s : PyStr} (h : PortUrlIn s) : ∃ t r, t <:+ s ∧ portUrl t = some r ∧ ¬ PortUrlIn r := by
  induction hn : s.length using Nat.strong_induction_on generalizing s with | _ n ih =>
  subst hn
  obtain ⟨t,hts,hat⟩ := h
  obtain ⟨r,hr⟩ : ∃ r, portUrl t = some r := by
    cases hm : portUrl t with
    | none => exact absurd hat ((portUrl_eq_none_iff t).mp hm)
    | some r => exact ⟨r,rfl⟩
  by_cases hin : PortUrlIn r
  · obtain ⟨w,hw,rfl⟩ := portUrl_proper t r hr
    have hlen : r.length < s.length := by
      have hle := hts.length_le
      have hpos := List.length_pos_of_ne_nil hw
      rw [List.length_append] at hle
      omega
    obtain ⟨t',r',ht',hr',hno⟩ := ih r.length hlen hin rfl
    exact ⟨t',r',(ht'.trans (List.suffix_append w r)).trans hts,hr',hno⟩
  · exact ⟨t,r,hts,hr,hin⟩

theorem ends_of_portUrlIn {s : PyStr} (h : PortUrlIn s) : ∃ r, ∀ p host, ∃ c, portsTo host (p ++ s) = c ++ (host ++ r) := by
  obtain ⟨t,r,hts,hr,hno⟩ := exists_last_portUrl h
  refine ⟨r,fun p host => ?_⟩
  obtain ⟨c,hc⟩ := portsTo_of_suffix host (hts.trans (List.suffix_append p s)) hr
  rw [portsTo_of_not_in host hno] at hc
  exact ⟨c ++ py "https://",by rw [hc]; simp⟩

theorem portsTo_eq_iff (s : PyStr) : portsTo apiHost s = portsTo devHost s ↔ ¬ PortUrlIn s := by
  constructor
  · intro heq h
    obtain ⟨r,hends⟩ := ends_of_portUrlIn h
    obtain ⟨c,hc⟩ := hends [] apiHost
    obtain ⟨c',hc'⟩ := hends [] devHost
    exact ends_apart (by decide) c c' r (hc.symm.trans (heq.trans hc'))
  · intro h
    rw [portsTo_of_not_in apiHost h,portsTo_of_not_in devHost h]

/-- A URL with a port begins with the letter h. -/
theorem portUrlIn_front_iff {front : PyStr} (h : 104 ∉ front) (s : PyStr) : PortUrlIn (front ++ s) ↔ PortUrlIn s := by
  constructor
  · rintro ⟨t,⟨x,hx⟩,hat⟩
    obtain ⟨scheme,w,b,rfl,hscheme,hw⟩ := id hat
    rw [(scheme_eq scheme hscheme).1,List.cons_append] at hx
    obtain ⟨x',-,rfl⟩ := append_of_not_mem h hx
    refine ⟨_,List.suffix_append x' _,?_⟩
    rw [← List.cons_append,← (scheme_eq scheme hscheme).1]
    exact hat
  · rintro ⟨t,ht,hat⟩
    exact ⟨t,ht.trans (List.suffix_append _ _),hat⟩

/-- A text without a slash that ends in a foreign letter stays in front. -/
theorem portsTo_foreign (host : PyStr) {v : PyStr} {d : CodePoint} (hd : d ∉ py "https://") (hv : 47 ∉ v) (s : PyStr) :
    portsTo host (v ++ d :: s) = v ++ d :: portsTo host s := by
  have hform : ∀ s : PyStr, v ++ d :: s = (v ++ [d]) ++ s := fun s => by simp
  rw [hform s,hform (portsTo host s)]
  refine replaceAll_append _ s (fun u hu hne => (portUrl_eq_none_iff _).mpr (fun hat => ?_))
  obtain ⟨x,hx⟩ := hu
  have hsuffix : u ++ s <:+ v ++ d :: s := ⟨x,by rw [← List.append_assoc,hx,hform s]⟩
  have hlen := (portUrlAt_behind hd hv hat hsuffix).length_le
  have hpos := List.length_pos_of_ne_nil hne
  rw [List.length_append] at hlen
  omega

theorem portsTo_host (origin : PyStr) {host : PyStr} (hhost : host ∈ [apiHost,dataHost]) (s : PyStr) :
    portsTo origin (host ++ s) = host ++ portsTo origin s := by
  have hlast : ∀ host ∈ [apiHost,dataHost], host = host.dropLast ++ [host.getLastD 0] ∧ host.getLastD 0 ∉ py "https://" ∧
      47 ∉ host.dropLast := by decide
  obtain ⟨hsplit,hd,hslash⟩ := hlast host hhost
  rw [hsplit,List.append_assoc,List.append_assoc]
  exact portsTo_foreign origin hd hslash s

theorem last_port {b : PyStr} (h : PortAhead b) : ∃ y r, b = y ++ r ∧ 47 ∉ y ∧ (∀ x, x ≠ [] → Ported (x ++ y)) ∧ ¬ PortAhead r := by
  have hsome : afterPort (0 :: b) ≠ none := by
    obtain ⟨port,hport,y,z,rfl,hy⟩ := h
    have hported : Ported (0 :: (y ++ port)) := ⟨0 :: y,by simp,port,hport,rfl⟩
    have hslash : 47 ∉ 0 :: (y ++ port) := by
      simp [hy,slash_not_mem_ports port hport]
    have hne := afterPort_ne_none hported hslash z
    simpa using hne
  obtain ⟨r,hr⟩ := Option.ne_none_iff_exists'.mp hsome
  obtain ⟨w,heq,⟨x,hx,port,hport,rfl⟩,hslash,hno⟩ := (afterPort_iff _ r).mp hr
  obtain ⟨c,x,rfl⟩ := List.exists_cons_of_ne_nil hx
  obtain ⟨-,rfl⟩ := List.cons.inj heq
  refine ⟨x ++ port,r,rfl,fun hmem => hslash (List.mem_cons_of_mem c hmem),fun x' hx' => ?_,hno⟩
  exact ⟨x' ++ x,by simp [hx'],port,hport,by simp⟩

theorem portAhead_dataHost_iff (b : PyStr) : PortAhead (dataHost ++ b) ↔ PortAhead b := by
  constructor
  · rintro ⟨port,hport,y,z,h,hy⟩
    have hcolon : ∀ port ∈ ports, port = 58 :: port.tail := by decide
    rw [hcolon port hport,List.cons_append] at h
    obtain ⟨y',rfl,rfl⟩ := append_of_not_mem (by decide : 58 ∉ dataHost) h.symm
    refine ⟨port,hport,y',z,?_,fun hmem => hy (List.mem_append_right _ hmem)⟩
    rw [← List.cons_append,← hcolon port hport]
  · intro h
    exact h.append_left (by decide)

/-- A URL with a port that begins in front of a host and ends behind it is replaced as a whole. -/
private theorem ends_of_match (origin : PyStr) {a host w r : PyStr} (ha : InHost a) (hslash : 47 ∉ host ++ w)
    (hported : Ported (host ++ w)) (hno : ¬ PortAhead r) (hin : ¬ PortUrlIn r) :
    ∃ c, portsTo origin (a ++ (host ++ (w ++ r))) = c ++ (origin ++ r) := by
  obtain ⟨a',scheme,v,rfl,hscheme,hv⟩ := ha
  have hurl : portUrl (scheme ++ (v ++ (host ++ w) ++ r)) = some r := by
    rw [portUrl_iff]
    exact ⟨scheme,v ++ (host ++ w),rfl,hscheme,hported.append_left v,List.not_mem_append hv hslash,hno⟩
  obtain ⟨c,hc⟩ := portsTo_of_suffix origin (List.suffix_append a' _) hurl
  have hform : a' ++ (scheme ++ v) ++ (host ++ (w ++ r)) = a' ++ (scheme ++ (v ++ (host ++ w) ++ r)) := by simp
  rw [portsTo_of_not_in origin hin] at hc
  exact ⟨c ++ py "https://",by rw [hform,hc]; simp⟩

/-- Where no such URL ends behind it, the host stays. -/
private theorem ends_of_no_match (origin : PyStr) {a host b : PyStr} (hhost : host ∈ [apiHost,dataHost])
    (hno : ¬ (InHost a ∧ PortAhead (host ++ b))) (hin : ¬ PortUrlIn b) :
    ∃ c, portsTo origin (a ++ (host ++ b)) = c ++ (host ++ b) := by
  have hletter : ∀ host ∈ [apiHost,dataHost], host = 100 :: host.tail := by decide
  have hhead : (host ++ b).head? = some 100 := by
    rw [hletter host hhost]
    rfl
  obtain ⟨c,hc,-,-⟩ := portsTo_cut origin (by decide) (by decide) hhead hno
  rw [portsTo_host origin hhost,portsTo_of_not_in origin hin] at hc
  exact ⟨c,hc⟩

/-- After the redirection the two texts end differently, wherever the data host stood. -/
theorem redirected_ne (a b : PyStr) : portsTo apiHost (a ++ (apiHost ++ b)) ≠ portsTo devHost (a ++ (dataHost ++ b)) := by
  suffices hends : ∃ host ∈ [devHost,dataHost], ∃ c c' r, portsTo apiHost (a ++ (apiHost ++ b)) = c ++ (apiHost ++ r) ∧
      portsTo devHost (a ++ (dataHost ++ b)) = c' ++ (host ++ r) by
    obtain ⟨host,hhost,c,c',r,hc,hc'⟩ := hends
    rw [hc,hc']
    exact ends_apart hhost c c' r
  by_cases hin : PortUrlIn b
  · obtain ⟨r,hends⟩ := ends_of_portUrlIn hin
    obtain ⟨c,hc⟩ := hends (a ++ apiHost) apiHost
    obtain ⟨c',hc'⟩ := hends (a ++ dataHost) devHost
    rw [List.append_assoc] at hc hc'
    exact ⟨devHost,by decide,c,c',r,hc,hc'⟩
  by_cases hboth : InHost a ∧ PortAhead b
  · -- both replace the URL that ends in the last port
    obtain ⟨y,r,rfl,hy,hported,hno⟩ := last_port hboth.2
    have hnotin : ¬ PortUrlIn r := fun ⟨t,ht,hat⟩ => hin ⟨t,ht.trans (List.suffix_append y r),hat⟩
    obtain ⟨c,hc⟩ := ends_of_match apiHost hboth.1 (List.not_mem_append (by decide) hy) (hported apiHost (by decide)) hno hnotin
    obtain ⟨c',hc'⟩ := ends_of_match devHost hboth.1 (List.not_mem_append (by decide) hy) (hported dataHost (by decide)) hno hnotin
    exact ⟨devHost,by decide,c,c',r,hc,hc'⟩
  · obtain ⟨c',hc'⟩ := ends_of_no_match devHost (by decide : dataHost ∈ [apiHost,dataHost])
      (by rwa [portAhead_dataHost_iff] : ¬ (InHost a ∧ PortAhead (dataHost ++ b))) hin
    have hfetch : ∃ c, portsTo apiHost (a ++ (apiHost ++ b)) = c ++ (apiHost ++ b) := by
      by_cases ha : InHost a
      · exact ends_of_match apiHost (w := []) ha (by decide) ported_apiHost (fun h => hboth ⟨ha,h⟩) hin
      · exact ends_of_no_match apiHost (by decide) (fun h => ha h.1) hin
    obtain ⟨c,hc⟩ := hfetch
    exact ⟨dataHost,by decide,c,c',b,hc,hc'⟩

end Thintuit.Client
