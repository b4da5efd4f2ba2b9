import Mathlib.Data.List.TakeWhile
import Occp.Adapters.BrowserSandbox
import Occp.Lib.Uri
import Occp.Policy.AuditChain

/-!
# The hosts that the browser sandbox checks

What the sandbox takes for the host is the text after a known scheme, up to the first colon or slash. Only where it is
the host of the URL do the lists hold for the host.
-/

namespace Occp.Adapters

open Lib Policy Text

/-! ## Lower case -/

theorem lowerChar_ne_nil (c : Char) : lowerChar c ≠ [] := by
  unfold lowerChar
  split
  · simp
  · split
    · simp
    · split <;> simp

@[simp] theorem lower_nil : lower [] = [] := rfl

@[simp] theorem lower_cons (c : Char) (cs : List Char) : lower (c :: cs) = lowerChar c ++ lower cs := rfl

@[simp] theorem lower_append (xs ys : List Char) : lower (xs ++ ys) = lower xs ++ lower ys := List.flatMap_append

@[simp] theorem lower_eq_nil {cs : List Char} : lower cs = [] ↔ cs = [] := by
  cases cs with
  | nil => simp
  | cons c cs => simp [lowerChar_ne_nil]

/-- What a capital letter becomes. -/
theorem lowerChar_upper {c : Char} (h : 'A' ≤ c ∧ c ≤ 'Z') :
    ∃ d, lowerChar c = [d] ∧ lowerChar d = [d] ∧ 'a' ≤ d ∧ d ≤ 'z' := by
  have hlow : 65 ≤ c.toNat := h.1
  have hhigh : c.toNat ≤ 90 := h.2
  have hall : ∀ n < 91, 65 ≤ n → lowerChar (Char.ofNat (n + 32)) = [Char.ofNat (n + 32)] ∧
      'a' ≤ Char.ofNat (n + 32) ∧ Char.ofNat (n + 32) ≤ 'z' := by decide
  refine ⟨Char.ofNat (c.toNat + 32), ?_, hall c.toNat (by omega) hlow⟩
  unfold lowerChar
  rw [if_pos h]

@[simp] theorem lower_lower (cs : List Char) : lower (lower cs) = lower cs := by
  have hchar : ∀ c, lower (lowerChar c) = lowerChar c := by
    intro c
    by_cases hupper : 'A' ≤ c ∧ c ≤ 'Z'
    · obtain ⟨d, hd, hsame, -⟩ := lowerChar_upper hupper
      rw [hd, lower_cons, hsame, lower_nil, List.append_nil]
    · by_cases hkelvin : c.toNat = 0x212A
      · have hc : lowerChar c = ['k'] := by simp [lowerChar, hupper, hkelvin]
        rw [hc]
        decide
      · by_cases hdotted : c.toNat = 0x130
        · have hc : lowerChar c = ['i', Char.ofNat 0x307] := by simp [lowerChar, hupper, hdotted]
          rw [hc]
          decide
        · have hc : lowerChar c = [c] := by simp [lowerChar, hupper, hkelvin, hdotted]
          rw [hc, lower_cons, hc, lower_nil, List.append_nil]
  induction cs with
  | nil => rfl
  | cons c cs ih => rw [lower_cons, lower_append, hchar, ih]

/-- A delimiter is in a text just when it is in the text in lower case. -/
theorem mem_lower {x : Char} (hx : x ∈ ":@/?#".toList) {cs : List Char} : x ∈ lower cs ↔ x ∈ cs := by
  have hcases : x = ':' ∨ x = '@' ∨ x = '/' ∨ x = '?' ∨ x = '#' := by simpa using hx
  have hnot : ¬ ('a' ≤ x ∧ x ≤ 'z') ∧ ¬ ('A' ≤ x ∧ x ≤ 'Z') ∧ x.toNat < 128 := by
    rcases hcases with rfl | rfl | rfl | rfl | rfl <;> decide
  have hchar : ∀ c, x ∈ lowerChar c ↔ x = c := by
    intro c
    by_cases hupper : 'A' ≤ c ∧ c ≤ 'Z'
    · obtain ⟨d, hd, -, hletter⟩ := lowerChar_upper hupper
      rw [hd, List.mem_singleton]
      refine iff_of_false ?_ ?_
      · rintro rfl
        exact hnot.1 hletter
      · rintro rfl
        exact hnot.2.1 hupper
    · by_cases hother : c.toNat = 0x212A ∨ c.toNat = 0x130
      · have hne : x ≠ c := by
          rintro rfl
          omega
        refine iff_of_false (fun hmem => ?_) hne
        have hk : x ∈ ['k', 'i', Char.ofNat 0x307] := by
          rcases hother with h | h <;> simp [lowerChar, hupper, h] at hmem <;> simp [hmem]
        rcases hcases with rfl | rfl | rfl | rfl | rfl <;> simp at hk
      · rw [not_or] at hother
        simp [lowerChar, hupper, hother]
  unfold lower
  rw [List.mem_flatMap]
  simp [hchar]

theorem length_lower {cs : List Char} (h : ∀ c ∈ cs, c.toNat < 128) : (lower cs).length = cs.length := by
  induction cs with
  | nil => rfl
  | cons c cs ih =>
    have hc := h c List.mem_cons_self
    have hsingle : (lowerChar c).length = 1 := by
      unfold lowerChar
      split
      · rfl
      · rw [if_neg (by omega), if_neg (by omega)]
        rfl
    rw [lower_cons, List.length_append, hsingle, ih fun d hd => h d (List.mem_cons_of_mem c hd), List.length_cons]
    omega

theorem alphanum_ascii {c : Char} (h : c.isAlphanum = true) : c.toNat < 128 := by
  delta Char.isAlphanum Char.isAlpha Char.isUpper Char.isLower Char.isDigit at h
  simp [UInt32.le_iff_toNat_le] at h
  omega

/-! ## Lists of domains -/

section Domains

variable (config : BrowserSandboxConfig)

theorem domainMatches_lower (domain : List Char) (pattern : String) :
    domainMatches (lower domain) pattern = domainMatches domain pattern := by
  unfold domainMatches
  rw [lower_lower]

/-- Case never matters. -/
theorem isDomainAllowed_congr {domain other : List Char} (h : lower domain = lower other) :
    config.isDomainAllowed domain = config.isDomainAllowed other := by
  unfold BrowserSandboxConfig.isDomainAllowed
  rw [h]

/-- The pattern of a domain and of all below it. -/
def wildcard (name : List Char) : String := String.ofList ('*' :: '.' :: name)

theorem domainMatches_wildcard {domain name : List Char} :
    domainMatches domain (wildcard name) = true ↔
      lower domain = lower name ∨ ('.' :: lower name) <:+ lower domain := by
  have hpattern : lower (wildcard name).toList = '*' :: '.' :: lower name := by
    rw [wildcard, String.toList_ofList]
    rfl
  unfold domainMatches
  simp only [hpattern]
  simp

/-- Two domains that differ are told apart by some lists. -/
theorem exists_config {domain other : List Char} (h : lower domain ≠ lower other) :
    ∃ config : BrowserSandboxConfig, config.isDomainAllowed domain = true ∧ config.isDomainAllowed other = false := by
  have hself : ∀ name, domainMatches (lower name) (wildcard name) = true := by
    intro name
    rw [domainMatches_lower]
    exact domainMatches_wildcard.mpr (.inl rfl)
  have hnot : ∀ name name', lower name ≠ lower name' → ¬ ('.' :: lower name) <:+ lower name' →
      domainMatches (lower name') (wildcard name) = false := by
    intro name name' hne habove
    rw [domainMatches_lower, Bool.eq_false_iff]
    intro hmatches
    rcases domainMatches_wildcard.mp hmatches with heq | hsuffix
    · exact hne heq.symm
    · exact habove hsuffix
  by_cases hbelow : ('.' :: lower domain) <:+ lower other
  · -- the other lies below the domain: deny it, and what lies below it
    have habove : ¬ ('.' :: lower other) <:+ lower domain := by
      intro habove
      have hlt := hbelow.length_le
      have hgt := habove.length_le
      simp only [List.length_cons] at hlt hgt
      omega
    refine ⟨{ deniedDomains := [wildcard other] }, ?_, ?_⟩
    · simp [BrowserSandboxConfig.isDomainAllowed, hnot other domain h.symm habove]
    · simp [BrowserSandboxConfig.isDomainAllowed, hself other]
  · refine ⟨{ allowedDomains := [wildcard domain] }, ?_, ?_⟩
    · simp [BrowserSandboxConfig.isDomainAllowed, hself domain]
    · simp [BrowserSandboxConfig.isDomainAllowed, hnot domain other h hbelow]

end Domains

/-! ## What the sandbox takes for the host -/

def knownSchemes : List (List Char) := ["https".toList, "http".toList, "ftp".toList]

/-- The text where the sandbox looks for the host is the host. -/
def Plain (u : Uri) : Prop :=
  match u.scheme with
  | none => u.host = []
  | some scheme =>
    if lower scheme ∈ knownSchemes then
      match u.userinfo with
      | none => ':' ∉ u.host ∧ (u.port = none → ∀ c, u.rest.head? = some c → c = '/')
      | some s => ':' ∈ s ∧ lower (before ':' s) = lower u.host
    else lower scheme = lower u.host

variable {u : Uri}

theorem before_append {c : Char} {xs ys : List Char} (h : c ∉ xs) : before c (xs ++ ys) = xs ++ before c ys := by
  unfold before
  rw [List.takeWhile_append_of_pos]
  intro d hd
  have hne : d ≠ c := fun heq => h (heq ▸ hd)
  simpa using hne

theorem before_append_of_mem {c : Char} {xs ys : List Char} (h : c ∈ xs) : before c (xs ++ ys) = before c xs := by
  induction xs with
  | nil => cases h
  | cons d xs ih =>
    unfold before at ih ⊢
    by_cases hd : d = c
    · simp [hd]
    · have hrest : c ∈ xs := by simpa [Ne.symm hd] using h
      simpa [hd] using ih hrest

@[simp] theorem before_cons_self (c : Char) (ys : List Char) : before c (c :: ys) = [] := by
  simp [before]

theorem notMem_before (c : Char) (s : List Char) : c ∉ before c s := by
  intro hmem
  have hne := List.mem_takeWhile_imp hmem
  simp at hne

theorem text_of_scheme {scheme : List Char} (hscheme : u.scheme = some scheme) :
    u.text = scheme ++ "://".toList ++ (u.authority ++ u.rest) := by
  unfold Uri.text
  rw [hscheme]
  simp

/-- A known scheme stands at the start just when it is the scheme. -/
theorem scheme_prefix_iff {scheme name : List Char} (hscheme : u.scheme = some scheme) (hname : ':' ∉ name) :
    (name ++ "://".toList).isPrefixOf (lower u.text) = true ↔ lower scheme = name := by
  have hcolon : ':' ∉ lower scheme := by
    rw [mem_lower (by decide)]
    exact Uri.notMem_scheme hscheme (.inl rfl)
  have htext : lower u.text = lower scheme ++ ':' :: '/' :: '/' :: lower (u.authority ++ u.rest) := by
    rw [text_of_scheme hscheme, List.append_assoc, lower_append, lower_append]
    rfl
  rw [List.isPrefixOf_iff_prefix, htext]
  constructor
  · rintro ⟨t, ht⟩
    have hbefore := congrArg (before ':') ht
    rw [List.append_assoc, before_append hname, before_append hcolon] at hbefore
    simpa using hbefore.symm
  · rintro rfl
    exact ⟨lower (u.authority ++ u.rest), by simp⟩

theorem schemes_eq : schemes = knownSchemes.map (· ++ "://".toList) := by decide

theorem colon_notMem_known : ∀ name ∈ knownSchemes, ':' ∉ name := by decide

theorem stripScheme_known {scheme : List Char} (hscheme : u.scheme = some scheme) (hknown : lower scheme ∈ knownSchemes) :
    stripScheme u.text = u.authority ++ u.rest := by
  have hprefix : ∀ name ∈ knownSchemes,
      (name ++ "://".toList).isPrefixOf (lower u.text) = decide (lower scheme = name) := by
    intro name hname
    rw [Bool.eq_iff_iff, scheme_prefix_iff hscheme (colon_notMem_known name hname), decide_eq_true_iff]
  have hfind : schemes.find? (fun s => s.isPrefixOf (lower u.text)) = some (lower scheme ++ "://".toList) := by
    have hhttps := hprefix "https".toList (by decide)
    have hhttp := hprefix "http".toList (by decide)
    have hftp := hprefix "ftp".toList (by decide)
    simp only [schemes_eq, knownSchemes, List.map_cons, List.map_nil, List.find?_cons, List.find?_nil, hhttps, hhttp, hftp]
    generalize lower scheme = name at hknown ⊢
    revert name
    decide
  have hlength : (lower scheme ++ "://".toList).length = (scheme ++ "://".toList).length := by
    rw [List.length_append, List.length_append, length_lower]
    intro c hc
    rcases (u.scheme_chars scheme hscheme).2 c hc with halnum | rfl | rfl | rfl
    · exact alphanum_ascii halnum
    · decide
    · decide
    · decide
  unfold stripScheme
  rw [hfind]
  dsimp only
  rw [hlength, text_of_scheme hscheme, List.drop_left]

/-- Where no known scheme stands, nothing is stripped. -/
theorem stripScheme_other (h : ∀ scheme, u.scheme = some scheme → lower scheme ∉ knownSchemes) : stripScheme u.text = u.text := by
  have hfind : schemes.find? (fun s => s.isPrefixOf (lower u.text)) = none := by
    rw [List.find?_eq_none, schemes_eq]
    intro s hs hprefix
    obtain ⟨name, hname, rfl⟩ := List.mem_map.mp hs
    cases hscheme : u.scheme with
    | none =>
      have htext : lower u.text = '/' :: '/' :: lower (u.authority ++ u.rest) := by
        unfold Uri.text
        rw [hscheme]
        simp only [List.nil_append, List.cons_append]
        rfl
      rw [htext, List.isPrefixOf_iff_prefix] at hprefix
      have hhead : ∀ name ∈ knownSchemes, name ++ "://".toList ≠ [] ∧ (name ++ "://".toList).head? ≠ some '/' := by decide
      obtain ⟨t, ht⟩ := hprefix
      have hslash := congrArg List.head? ht
      rw [List.head?_append_of_ne_nil _ (hhead name hname).1] at hslash
      exact (hhead name hname).2 hslash
    | some scheme =>
      have heq := (scheme_prefix_iff hscheme (colon_notMem_known name hname)).mp hprefix
      exact h scheme hscheme (heq ▸ hname)
  unfold stripScheme
  rw [hfind]

/-! ## Where it is the host -/

/-- Without user information, the host is cut at its first colon, or it goes on where nothing ends it. -/
theorem before_authority_none (huser : u.userinfo = none) :
    lower (before ':' (u.authority ++ before '/' u.rest)) = lower u.host ↔
      ':' ∉ u.host ∧ (u.port = none → ∀ c, u.rest.head? = some c → c = '/') := by
  by_cases hcolon : ':' ∈ u.host
  · refine iff_of_false (fun heq => ?_) fun h => h.1 hcolon
    rw [← mem_lower (by decide), ← heq, mem_lower (by decide)] at hcolon
    exact notMem_before _ _ hcolon
  · unfold Uri.authority
    rw [huser, List.nil_append, List.append_assoc, before_append hcolon, lower_append]
    cases hport : u.port with
    | some port => simp [hcolon]
    | none =>
      rw [List.nil_append]
      cases hrest : u.rest with
      | nil => simp [before, hcolon]
      | cons c rest =>
        have hstart := u.rest_start c (by rw [hrest]; rfl)
        by_cases hslash : c = '/'
        · simp [hslash, before, hcolon]
        · have hne : c ≠ ':' := by
            rintro rfl
            revert hstart
            decide
          have hbefore : before ':' (before '/' (c :: rest)) ≠ [] := by
            simp [before, hslash, hne]
          simp [hcolon, hslash, hbefore]

/-- With user information, the sandbox looks at the name in it. -/
theorem before_authority_some {user : List Char} (huser : u.userinfo = some user) :
    lower (before ':' (u.authority ++ before '/' u.rest)) = lower u.host ↔
      ':' ∈ user ∧ lower (before ':' user) = lower u.host := by
  have hauthority : ∃ t, u.authority ++ before '/' u.rest = user ++ '@' :: t := by
    unfold Uri.authority
    rw [huser]
    simp only [List.append_assoc, List.singleton_append]
    exact ⟨_, rfl⟩
  obtain ⟨t, ht⟩ := hauthority
  rw [ht]
  by_cases hcolon : ':' ∈ user
  · rw [before_append_of_mem hcolon]
    exact (and_iff_right hcolon).symm
  · refine iff_of_false (fun heq => ?_) fun h => hcolon h.1
    have hat : '@' ∈ lower u.host := by
      rw [← heq, mem_lower (by decide), before_append hcolon]
      simp [before]
    rw [mem_lower (by decide)] at hat
    exact Uri.notMem_host (.inl rfl) hat

/-- What is extracted is the host just where it stands plain. -/
theorem extractDomain_iff (u : Uri) : extractDomain u.text = lower u.host ↔ Plain u := by
  unfold extractDomain Plain
  cases hscheme : u.scheme with
  | none =>
    rw [stripScheme_other (by simp [hscheme])]
    have htext : before '/' u.text = [] := by
      unfold Uri.text
      rw [hscheme]
      simp
    rw [htext, eq_comm]
    simp [before]
  | some scheme =>
    dsimp only
    split
    · next hknown =>
      rw [stripScheme_known hscheme hknown, before_append Uri.slash_notMem_authority]
      cases huser : u.userinfo with
      | none => exact before_authority_none huser
      | some user => exact before_authority_some huser
    · next hother =>
      have hstrip := stripScheme_other (u := u) (by
        intro s hs
        rw [hscheme] at hs
        cases hs
        exact hother)
      have hcolon := Uri.notMem_scheme hscheme (c := ':') (.inl rfl)
      have hslash := Uri.notMem_scheme hscheme (c := '/') (.inr rfl)
      have htext : u.text = scheme ++ ':' :: '/' :: '/' :: (u.authority ++ u.rest) := by
        rw [text_of_scheme hscheme]
        simp
      rw [hstrip, htext, before_append hslash]
      have hafter : before '/' (':' :: '/' :: '/' :: (u.authority ++ u.rest)) = [':'] := by
        simp [before]
      rw [hafter, before_append hcolon, before_cons_self, List.append_nil]

/-- Whatever the lists say, a navigation that is permitted goes to a host that they allow. -/
def HostChecked (py : PyLib) (u : Uri) : Prop :=
  ∀ (s : BrowserSandbox) (m : BrowserMoment), s.Permits py m (String.ofList u.text) → s.config.isDomainAllowed u.host = true

/-- **The lists hold for the host just where it stands plain in the URL.** -/
theorem hostChecked_iff (py : PyLib) (u : Uri) : HostChecked py u ↔ Plain u := by
  rw [← extractDomain_iff]
  have hne : String.ofList u.text ≠ "" := by
    intro h
    have htext := congrArg String.toList h
    rw [String.toList_ofList] at htext
    simp [Uri.text] at htext
  constructor
  · intro h
    by_contra hdiffers
    have hdiffers' : lower (extractDomain u.text) ≠ lower u.host := by
      unfold extractDomain at hdiffers ⊢
      rwa [lower_lower]
    obtain ⟨config, hallowed, hdenied⟩ := exists_config hdiffers'
    let m : BrowserMoment := { now := 0, timeOfDay := 0, entryId := "", timestamp := "", durationMs := 0, taskId := "", auditId := "" }
    have hpermits : BrowserSandbox.Permits py { config } m (String.ofList u.text) :=
      BrowserSandbox.permits_of_isDomainAllowed rfl (by rwa [String.toList_ofList])
    rw [h { config } m hpermits] at hdenied
    cases hdenied
  · intro hsame s m hpermits
    have hallowed := BrowserSandbox.isDomainAllowed_of_permits hne hpermits
    rw [String.toList_ofList] at hallowed
    have hlower : lower u.host = lower (extractDomain u.text) := by rw [hsame, lower_lower]
    rwa [isDomainAllowed_congr s.config hlower]

/-! ## A confused host -/

/-- `http://example.com:x@evil.com/`. -/
def confusedUri : Uri where
  scheme := some "http".toList
  userinfo := some "example.com:x".toList
  host := "evil.com".toList
  port := none
  rest := ['/']
  scheme_chars := by simp
  userinfo_chars := by simp [regNameChar]
  isHost := .inl (by simp [regNameChar])
  port_digits := by simp
  rest_start := by simp [endsAuthority]

example : String.ofList confusedUri.text = "http://example.com:x@evil.com/" := by decide

/-- The host of a user name is allowed, and another one is visited. -/
theorem confused_host_visited : ¬ ∀ (py : PyLib) (u : Uri), HostChecked py u := by
  intro h
  let s : BrowserSandbox := { config := { allowedDomains := ["example.com"] } }
  let m : BrowserMoment := { now := 0, timeOfDay := 0, entryId := "e1", timestamp := "t1", durationMs := 1, taskId := "b1", auditId := "a1" }
  have hpermits : s.Permits sampleLib m (String.ofList confusedUri.text) :=
    BrowserSandbox.permits_of_isDomainAllowed rfl (by decide +kernel)
  have hallowed := h sampleLib confusedUri s m hpermits
  revert hallowed
  decide +kernel

end Occp.Adapters
