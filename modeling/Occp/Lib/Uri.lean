import Mathlib.Data.List.Basic

/-!
# URIs with an authority (RFC 3986)

The generic syntax, component by component. Percent signs are not checked for their digits, nor bracketed hosts for
the address in them.
-/

namespace Occp.Lib

/-- `unreserved`, `sub-delims` and percent signs. -/
def regNameChar (c : Char) : Bool := c.isAlphanum || "-._~!$&'()*+,;=%".toList.contains c

/-- `reg-name`, an IPv4 address among them, or an `IP-literal`. -/
def IsHost (host : List Char) : Prop :=
  (∀ c ∈ host, regNameChar c = true) ∨
    ∃ address, host = '[' :: address ++ [']'] ∧ ∀ c ∈ address, regNameChar c = true ∨ c = ':'

/-- Where an authority ends. -/
def endsAuthority (c : Char) : Bool := c = '/' || c = '?' || c = '#'

structure Uri where
  /-- `none` for a network-path reference. -/
  scheme : Option (List Char)
  userinfo : Option (List Char)
  host : List Char
  port : Option (List Char)
  /-- Path, query and fragment. -/
  rest : List Char
  scheme_chars : ∀ s, scheme = some s → s ≠ [] ∧ ∀ c ∈ s, c.isAlphanum = true ∨ c = '+' ∨ c = '-' ∨ c = '.'
  userinfo_chars : ∀ s, userinfo = some s → ∀ c ∈ s, regNameChar c = true ∨ c = ':'
  isHost : IsHost host
  port_digits : ∀ s, port = some s → ∀ c ∈ s, c.isDigit = true
  rest_start : ∀ c, rest.head? = some c → endsAuthority c = true

namespace Uri

variable (u : Uri)

def authority : List Char :=
  (match u.userinfo with | some s => s ++ ['@'] | none => []) ++ u.host ++
    (match u.port with | some s => ':' :: s | none => [])

def text : List Char :=
  (match u.scheme with | some s => s ++ [':'] | none => []) ++ '/' :: '/' :: u.authority ++ u.rest

/-- The characters of an authority that are none of its parts'. -/
theorem not_regNameChar {c : Char} (h : c = ':' ∨ c = '@' ∨ c = '/' ∨ c = '?' ∨ c = '#' ∨ c = '[' ∨ c = ']') :
    regNameChar c = false := by
  rcases h with rfl | rfl | rfl | rfl | rfl | rfl | rfl <;> decide

variable {u}

theorem notMem_host {c : Char} (h : c = '@' ∨ c = '/' ∨ c = '?' ∨ c = '#') : c ∉ u.host := by
  have hplain := not_regNameChar (c := c) (by tauto)
  intro hmem
  rcases u.isHost with hname | ⟨address, heq, haddress⟩
  · rw [hname c hmem] at hplain
    cases hplain
  · rw [heq] at hmem
    have hne : c ≠ '[' ∧ c ≠ ']' ∧ c ≠ ':' := by
      rcases h with rfl | rfl | rfl | rfl <;> decide
    have hinside : c ∈ address := by simpa [hne.1, hne.2.1] using hmem
    rcases haddress c hinside with hname | hcolon
    · rw [hname] at hplain
      cases hplain
    · exact hne.2.2 hcolon

theorem notMem_userinfo {s : List Char} (hs : u.userinfo = some s) {c : Char} (h : c = '@' ∨ c = '/' ∨ c = '?' ∨ c = '#') :
    c ∉ s := by
  intro hmem
  rcases u.userinfo_chars s hs c hmem with hname | rfl
  · rw [not_regNameChar (c := c) (by tauto)] at hname
    cases hname
  · revert h
    decide

theorem notMem_scheme {s : List Char} (hs : u.scheme = some s) {c : Char} (h : c = ':' ∨ c = '/') : c ∉ s := by
  intro hmem
  have hchars := (u.scheme_chars s hs).2 c hmem
  revert hchars
  rcases h with rfl | rfl <;> decide

theorem slash_notMem_authority : '/' ∉ u.authority := by
  unfold authority
  intro hmem
  rcases List.mem_append.mp hmem with hmem | hport
  · rcases List.mem_append.mp hmem with huser | hhost
    · cases huserinfo : u.userinfo with
      | none => simp [huserinfo] at huser
      | some s =>
        rw [huserinfo] at huser
        rcases List.mem_append.mp huser with hs | hat
        · exact notMem_userinfo huserinfo (by simp) hs
        · revert hat
          decide
    · exact notMem_host (by simp) hhost
  · cases hp : u.port with
    | none => simp [hp] at hport
    | some s =>
      rw [hp] at hport
      rcases List.mem_cons.mp hport with hcolon | hs
      · revert hcolon
        decide
      · have hdigit := u.port_digits s hp _ hs
        revert hdigit
        decide

end Uri

end Occp.Lib
