import Mathlib.Data.Rat.Floor
import Occp.Errors
import Occp.Lib.Runs
import Occp.Lib.SlidingWindow
import Occp.Text

/-!
# Request limits (`api/middleware.py`)

A request is let through, or answered with 429, before anything is awaited: requests come one after the
other here, each with its reading of the clock, and times are exact. Headers and logging are left out.
-/

namespace Occp.Api

open Lib (run Admitted within Limited Keeps)

structure Request where
  path : String
  /-- The header `x-forwarded-for`. -/
  forwarded : Option String := none
  /-- `request.client.host` -/
  host : Option String := none

inductive LimitAnswer where
  /-- The request goes on to the next handler. -/
  | callNext
  | tooManyRequests (retryAfter : Int)
  | raised (exc : PyError)
  deriving DecidableEq

structure RateLimitMiddleware where
  maxRequests : Int := 20
  window : Int := 60
  paths : Option (List String) := none
  hits : Dict (List Rat) := []

/-- `int(x)` of a float. -/
def truncated (x : Rat) : Int := if 0 ≤ x then ⌊x⌋ else ⌈x⌉

def clientIp (request : Request) : String :=
  match request.forwarded with
  | some forwarded =>
    if forwarded ≠ "" then String.ofList (Text.strip (forwarded.toList.takeWhile (· ≠ ','))) else request.host.getD "unknown"
  | none => request.host.getD "unknown"

namespace RateLimitMiddleware

def shouldLimit (m : RateLimitMiddleware) (path : String) : Bool :=
  match m.paths with
  | none => true
  | some paths => paths.any fun p => p.toList.isPrefixOf path.toList

/-- `_hits` is a `defaultdict`. -/
def hitsOf (m : RateLimitMiddleware) (client : String) : List Rat := (m.hits.get? client).getD []

/-- The hits that the window has not passed. -/
def recent (m : RateLimitMiddleware) (client : String) (now : Rat) : List Rat :=
  (m.hitsOf client).filter fun t => now - m.window < t

def dispatch (m : RateLimitMiddleware) (request : Request) (now : Rat) : LimitAnswer × RateLimitMiddleware :=
  if !m.shouldLimit request.path then (.callNext, m)
  else
    let client := clientIp request
    let recent := m.recent client now
    let pruned := { m with hits := m.hits.set client recent }
    if m.maxRequests ≤ recent.length then
      match recent with
      | [] => (.raised (.other "IndexError" "list index out of range"), pruned)
      | first :: _ => (.tooManyRequests (max (truncated (m.window - (now - first))) 1), pruned)
    else (.callNext, { m with hits := m.hits.set client (recent ++ [now]) })

variable {m : RateLimitMiddleware} {request : Request} {now : Rat}

/-- Only hits change. -/
theorem dispatch_frame (m : RateLimitMiddleware) (request : Request) (now : Rat) :
    (m.dispatch request now).2 = { m with hits := (m.dispatch request now).2.hits } := by
  unfold dispatch
  split
  · rfl
  · dsimp only
    split
    · split <;> rfl
    · rfl

theorem dispatch_of_free (h : m.shouldLimit request.path = false) : m.dispatch request now = (.callNext, m) := by
  simp [dispatch, h]

theorem dispatch_of_room (h : m.shouldLimit request.path = true)
    (hroom : ((m.recent (clientIp request) now).length : Int) < m.maxRequests) :
    m.dispatch request now =
      (.callNext, { m with hits := m.hits.set (clientIp request) (m.recent (clientIp request) now ++ [now]) }) := by
  have hfull : ¬ m.maxRequests ≤ (m.recent (clientIp request) now).length := by omega
  simp [dispatch, h, hfull]

theorem dispatch_of_full (h : m.shouldLimit request.path = true)
    (hfull : m.maxRequests ≤ (m.recent (clientIp request) now).length) :
    (m.dispatch request now).1 ≠ .callNext ∧
      (m.dispatch request now).2 = { m with hits := m.hits.set (clientIp request) (m.recent (clientIp request) now) } := by
  unfold dispatch
  simp only [h, Bool.not_true, Bool.false_eq_true, if_false, if_pos hfull]
  split
  · next hnil => exact ⟨by simp, by rw [hnil]⟩
  · next hcons => exact ⟨by simp, by rw [hcons]⟩

/-- What a refusal says is read off the oldest hit. -/
theorem dispatch_tooManyRequests {seconds : Int} (h : (m.dispatch request now).1 = .tooManyRequests seconds) :
    m.shouldLimit request.path = true ∧ ∃ first rest, m.recent (clientIp request) now = first :: rest ∧
      m.maxRequests ≤ (first :: rest).length ∧ seconds = max (truncated (m.window - (now - first))) 1 := by
  unfold dispatch at h
  split at h
  · cases h
  · next hlimit =>
    refine ⟨by simpa using hlimit, ?_⟩
    dsimp only at h
    split at h
    · next hfull =>
      split at h
      · cases h
      · next first rest hrecent =>
        rw [hrecent] at hfull
        exact ⟨first, rest, hrecent, hfull, (LimitAnswer.tooManyRequests.inj h).symm⟩
    · cases h

end RateLimitMiddleware

/-! ## Requests in turn -/

/-- A middleware, when it last read the clock, and each limited request that it let through. -/
structure Traffic where
  middleware : RateLimitMiddleware
  clock : Rat
  accepted : List (String × Rat) := []

structure Arrival where
  request : Request
  now : Rat

namespace Traffic

def step (s : Traffic) (a : Arrival) : Traffic where
  middleware := (s.middleware.dispatch a.request a.now).2
  clock := a.now
  accepted :=
    if s.middleware.shouldLimit a.request.path ∧ (s.middleware.dispatch a.request a.now).1 = .callNext then
      s.accepted ++ [(clientIp a.request, a.now)]
    else s.accepted

/-- `time.monotonic` does not go back. -/
def Forward (s : Traffic) (a : Arrival) : Prop := s.clock ≤ a.now

instance (s : Traffic) (a : Arrival) : Decidable (s.Forward a) := inferInstanceAs (Decidable (_ ≤ _))

/-- When the client's limited requests were let through. -/
def times (s : Traffic) (client : String) : List Rat := (s.accepted.filter (·.1 = client)).map (·.2)

variable {s : Traffic} {a : Arrival} {client : String}

theorem times_step (s : Traffic) (a : Arrival) (client : String) :
    (s.step a).times client =
      if s.middleware.shouldLimit a.request.path ∧ (s.middleware.dispatch a.request a.now).1 = .callNext ∧
        clientIp a.request = client then s.times client ++ [a.now] else s.times client := by
  unfold times step
  by_cases hin : s.middleware.shouldLimit a.request.path = true ∧ (s.middleware.dispatch a.request a.now).1 = .callNext
  · by_cases hclient : clientIp a.request = client <;> simp [hin, hclient, List.filter_append]
  · have hout : ¬ (s.middleware.shouldLimit a.request.path = true ∧ (s.middleware.dispatch a.request a.now).1 = .callNext ∧
        clientIp a.request = client) := fun h => hin ⟨h.1, h.2.1⟩
    simp only [if_neg hin, if_neg hout]

/-- The hits of every client count as the log of all requests does, and every window is limited. -/
structure Sound (window maxRequests : Int) (paths : Option (List String)) (s : Traffic) : Prop where
  sameWindow : s.middleware.window = window
  sameMax : s.middleware.maxRequests = maxRequests
  samePaths : s.middleware.paths = paths
  keeps : ∀ client, Keeps (window : Rat) s.clock (s.middleware.hitsOf client) (s.times client)
  limited : ∀ client, Limited (window : Rat) maxRequests.toNat (s.times client)

variable {window maxRequests : Int} {paths : Option (List String)}

theorem hitsOf_set (m : RateLimitMiddleware) (client other : String) (hits : List Rat) :
    RateLimitMiddleware.hitsOf { m with hits := m.hits.set client hits } other =
      if other = client then hits else m.hitsOf other := by
  unfold RateLimitMiddleware.hitsOf
  rw [Dict.get?_set]
  split <;> rfl

/-- What one request does to the hits and to the log decides. -/
theorem Sound.next (h : Sound window maxRequests paths s)
    (hkeeps : ∀ client, Keeps (window : Rat) a.now ((s.step a).middleware.hitsOf client) ((s.step a).times client))
    (hlimited : ∀ client, Limited (window : Rat) maxRequests.toNat ((s.step a).times client)) :
    Sound window maxRequests paths (s.step a) := by
  have hframe : (s.step a).middleware = { s.middleware with hits := (s.step a).middleware.hits } :=
    RateLimitMiddleware.dispatch_frame s.middleware a.request a.now
  refine ⟨?_, ?_, ?_, hkeeps, hlimited⟩
  · rw [hframe]
    exact h.sameWindow
  · rw [hframe]
    exact h.sameMax
  · rw [hframe]
    exact h.samePaths

theorem Sound.recent_eq (h : Sound window maxRequests paths s) (client : String) (now : Rat) :
    s.middleware.recent client now = (s.middleware.hitsOf client).filter (now - (window : Rat) < ·) := by
  rw [RateLimitMiddleware.recent, h.sameWindow]

/-- A request on a free path leaves no trace. -/
theorem Sound.step_of_free (h : Sound window maxRequests paths s) (ha : s.Forward a)
    (hfree : s.middleware.shouldLimit a.request.path = false) : Sound window maxRequests paths (s.step a) := by
  have hdispatch : s.middleware.dispatch a.request a.now = (.callNext, s.middleware) :=
    RateLimitMiddleware.dispatch_of_free hfree
  have htimes (client : String) : (s.step a).times client = s.times client := by
    rw [times_step, if_neg]
    simp [hfree]
  refine h.next (fun client => ?_) fun client => ?_
  · rw [htimes]
    simp only [Traffic.step, hdispatch]
    exact (h.keeps client).later ha
  · rw [htimes]
    exact h.limited client

/-- A refusal prunes. -/
theorem Sound.step_of_full (h : Sound window maxRequests paths s) (ha : s.Forward a)
    (hlimit : s.middleware.shouldLimit a.request.path = true)
    (hfull : s.middleware.maxRequests ≤ (s.middleware.recent (clientIp a.request) a.now).length) :
    Sound window maxRequests paths (s.step a) := by
  obtain ⟨hanswer, hnext⟩ := RateLimitMiddleware.dispatch_of_full hlimit hfull
  have htimes (client : String) : (s.step a).times client = s.times client := by
    rw [times_step, if_neg fun hin => hanswer hin.2.1]
  refine h.next (fun client => ?_) fun client => ?_
  · rw [htimes]
    simp only [Traffic.step, hnext, hitsOf_set]
    split
    · next hclient =>
      rw [hclient, h.recent_eq]
      exact (h.keeps _).prune ha
    · exact (h.keeps client).later ha
  · rw [htimes]
    exact h.limited client

/-- What is let through finds room and is noted, by the hits as by the log. -/
theorem Sound.step_of_room (h : Sound window maxRequests paths s) (ha : s.Forward a)
    (hlimit : s.middleware.shouldLimit a.request.path = true)
    (hroom : ((s.middleware.recent (clientIp a.request) a.now).length : Int) < s.middleware.maxRequests) :
    Sound window maxRequests paths (s.step a) := by
  have hdispatch := RateLimitMiddleware.dispatch_of_room hlimit hroom
  have htimes (client : String) : (s.step a).times client =
      if client = clientIp a.request then s.times client ++ [a.now] else s.times client := by
    rw [times_step, hdispatch]
    simp [hlimit, eq_comm]
  refine h.next (fun client => ?_) fun client => ?_
  · rw [htimes]
    simp only [Traffic.step, hdispatch, hitsOf_set]
    split
    · next hclient =>
      rw [hclient, h.recent_eq]
      exact ((h.keeps _).prune ha).concat
    · exact (h.keeps client).later ha
  · rw [htimes]
    split
    · next hclient =>
      have hcount : ((s.times client).filter (a.now - (window : Rat) < ·)).length < maxRequests.toNat := by
        rw [← (h.keeps client).recent _ (sub_le_sub_right ha _), ← h.recent_eq, hclient]
        have hmax := h.sameMax
        omega
      exact (h.limited client).concat hcount
    · exact h.limited client

theorem Sound.step (h : Sound window maxRequests paths s) (ha : s.Forward a) : Sound window maxRequests paths (s.step a) := by
  cases hlimit : s.middleware.shouldLimit a.request.path with
  | false => exact h.step_of_free ha hlimit
  | true =>
    rcases lt_or_ge (((s.middleware.recent (clientIp a.request) a.now).length : Int)) s.middleware.maxRequests with hroom | hfull
    · exact h.step_of_room ha hlimit hroom
    · exact h.step_of_full ha hlimit hfull

/-- A middleware that has seen no request. -/
def fresh (maxRequests window : Int) (paths : Option (List String)) (start : Rat) : Traffic where
  middleware := { maxRequests, window, paths }
  clock := start

theorem sound_fresh (maxRequests window : Int) (paths : Option (List String)) (start : Rat) :
    Sound window maxRequests paths (fresh maxRequests window paths start) where
  sameWindow := rfl
  sameMax := rfl
  samePaths := rfl
  keeps _ := Lib.keeps_nil _ _
  limited _ := Lib.limited_nil _ _

theorem sound_run {start : Rat} {arrivals : List Arrival}
    (h : Admitted step Forward (fresh maxRequests window paths start) arrivals) :
    Sound window maxRequests paths (run step (fresh maxRequests window paths start) arrivals) :=
  h.invariant (Sound window maxRequests paths) (sound_fresh maxRequests window paths start) fun _ _ hs ha => hs.step ha

/-- What is left of the hits is as many as the window holds of the log. -/
theorem Sound.length_recent (h : Sound window maxRequests paths s) (ha : s.Forward a) (client : String) :
    (s.middleware.recent client a.now).length = within (window : Rat) a.now (s.times client) := by
  rw [h.recent_eq]
  exact (h.keeps client).length_pruned ha

/-- The limiter answers as one would that keeps all times. -/
theorem Sound.callNext_iff (h : Sound window maxRequests paths s) (ha : s.Forward a) :
    (s.middleware.dispatch a.request a.now).1 = .callNext ↔ s.middleware.shouldLimit a.request.path = false ∨
      (within (window : Rat) a.now (s.times (clientIp a.request)) : Int) < maxRequests := by
  cases hlimit : s.middleware.shouldLimit a.request.path with
  | false => simp [RateLimitMiddleware.dispatch_of_free hlimit]
  | true =>
    rw [← h.length_recent ha]
    rcases lt_or_ge (((s.middleware.recent (clientIp a.request) a.now).length : Int)) s.middleware.maxRequests with hroom | hfull
    · simp [RateLimitMiddleware.dispatch_of_room hlimit hroom, ← h.sameMax, hroom]
    · have hanswer := (RateLimitMiddleware.dispatch_of_full hlimit hfull).1
      simp [hanswer, ← h.sameMax, hfull]

/-! ## Windows -/

/-- **No window holds more than the limit.** Of the requests of a client that the limiter let through, at
most `requests_per_window` lie in any window of `window_seconds`, wherever it ends, and whatever other
clients sent and which paths are free. -/
theorem window_kept (maxRequests window : Int) (paths : Option (List String)) (start : Rat) (arrivals : List Arrival)
    (h : Admitted step Forward (fresh maxRequests window paths start) arrivals) (client : String) (t : Rat) :
    within (window : Rat) t ((run step (fresh maxRequests window paths start) arrivals).times client) ≤ maxRequests.toNat :=
  (sound_run h).limited client t

/-- A login from a host, at this time. -/
def loginAt (now : Rat) : Arrival := { request := { path := "/api/v1/auth/login", host := some "10.0.0.1" }, now }

theorem window_kept_logins :
    within ((60 : Int) : Rat) 61 ((run step (fresh 2 60 none 0) [loginAt 0, loginAt 1, loginAt 2, loginAt 61]).times "10.0.0.1") ≤
      (2 : Int).toNat :=
  window_kept 2 60 none 0 [loginAt 0, loginAt 1, loginAt 2, loginAt 61] (by decide +kernel) "10.0.0.1" 61

/-- **Nobody is refused for the requests of others, or for old or refused ones.** However the lists of hits were pruned on
the way, a request goes through just when its path is free or the window of its client has room. -/
theorem let_through_iff (maxRequests window : Int) (paths : Option (List String)) (start : Rat) (arrivals : List Arrival)
    (a : Arrival) (h : Admitted step Forward (fresh maxRequests window paths start) (arrivals ++ [a])) :
    ((run step (fresh maxRequests window paths start) arrivals).middleware.dispatch a.request a.now).1 = .callNext ↔
      (fresh maxRequests window paths start).middleware.shouldLimit a.request.path = false ∨
        (within (window : Rat) a.now
          ((run step (fresh maxRequests window paths start) arrivals).times (clientIp a.request)) : Int) < maxRequests := by
  obtain ⟨hbefore, ha, -⟩ := Lib.admitted_append.mp h
  have hsound := sound_run hbefore
  rw [hsound.callNext_iff ha, RateLimitMiddleware.shouldLimit, RateLimitMiddleware.shouldLimit, hsound.samePaths]
  rfl

theorem let_through_iff_third_login :
    ((run step (fresh 2 60 none 0) [loginAt 0, loginAt 1]).middleware.dispatch
        (loginAt 2).request (loginAt 2).now).1 = .callNext ↔
      (fresh 2 60 none 0).middleware.shouldLimit (loginAt 2).request.path = false ∨
        (within ((60 : Int) : Rat) (loginAt 2).now
          ((run step (fresh 2 60 none 0) [loginAt 0, loginAt 1]).times (clientIp (loginAt 2).request)) : Int) < 2 :=
  let_through_iff 2 60 none 0 [loginAt 0, loginAt 1] (loginAt 2) (by decide +kernel)

/-! ## Retries -/

theorem truncated_spec {x : Rat} (h : 0 < x) : (truncated x : Rat) ≤ x ∧ x < truncated x + 1 := by
  rw [truncated, if_pos h.le]
  exact ⟨Int.floor_le x, Int.lt_floor_add_one x⟩

/-- The refused client has had nothing let through between the two states. -/
def Quiet (s s' : Traffic) (client : String) : Prop := s'.times client = s.times client

theorem Sound.retry {s' : Traffic} {a' : Arrival} {seconds : Int} (h : Sound window maxRequests paths s) (ha : s.Forward a)
    (hrefused : (s.middleware.dispatch a.request a.now).1 = .tooManyRequests seconds) (h' : Sound window maxRequests paths s')
    (hquiet : Quiet s s' (clientIp a.request)) (hclient : clientIp a'.request = clientIp a.request)
    (hlimited : s'.middleware.shouldLimit a'.request.path = true) (hlater : a.now ≤ a'.now) (ha' : s'.Forward a') :
    (a.now + seconds + 1 ≤ a'.now → (s'.middleware.dispatch a'.request a'.now).1 = .callNext) ∧
      (1 < seconds → a'.now < a.now + seconds → (s'.middleware.dispatch a'.request a'.now).1 ≠ .callNext) := by
  obtain ⟨-, first, rest, hrecent, hfull, hseconds⟩ := RateLimitMiddleware.dispatch_tooManyRequests hrefused
  have hkeeps := h.keeps (clientIp a.request)
  have hwindow : (s.times (clientIp a.request)).filter (a.now - (window : Rat) < ·) = first :: rest := by
    rw [← hkeeps.recent _ (sub_le_sub_right ha _), ← hrecent, h.recent_eq]
  have hfirst : a.now - (window : Rat) < first ∧ first ≤ a.now := by
    have hmem : first ∈ (s.times (clientIp a.request)).filter (a.now - (window : Rat) < ·) := hwindow ▸ List.mem_cons_self
    rw [List.mem_filter, decide_eq_true_eq] at hmem
    exact ⟨hmem.2, (hkeeps.past first hmem.1).trans ha⟩
  have hspec := truncated_spec (x := window - (a.now - first)) (by linarith)
  rw [h.sameWindow] at hseconds
  have hwhole : truncated (window - (a.now - first)) ≤ seconds := hseconds ▸ le_max_left _ _
  have hcast : (truncated (window - (a.now - first)) : Rat) ≤ seconds := by exact_mod_cast hwhole
  have hlength : (first :: rest).length ≤ maxRequests.toNat := by
    have hpast : ∀ u ∈ s.times (clientIp a.request), u ≤ a.now := fun u hu => (hkeeps.past u hu).trans ha
    rw [← hwindow, ← Lib.within_eq_length hpast]
    exact h.limited (clientIp a.request) a.now
  constructor
  · intro hdue
    rw [h'.callNext_iff ha', hclient, hquiet]
    have hleft := Lib.within_lt_of_first hwindow hlater (by linarith)
    right
    rw [List.length_cons] at hlength hleft
    omega
  · intro hmore hearly
    rw [Ne, h'.callNext_iff ha', hclient, hquiet, hlimited]
    have hexact : seconds = truncated (window - (a.now - first)) := by omega
    have hearly' : a'.now - (window : Rat) < first := by
      rw [hexact] at hearly
      linarith
    have hall := Lib.le_within_of_first hwindow (fun u hu => (hkeeps.past u hu).trans ha) hkeeps.ordered hlater hearly'
    rw [h.sameMax] at hfull
    simp
    omega

theorem clock_le_run {arrivals : List Arrival} (h : Admitted step Forward s arrivals) : s.clock ≤ (run step s arrivals).clock :=
  h.invariant (fun s' => s.clock ≤ s'.clock) le_rfl fun _ _ hs ha => hs.trans ha

/-- **The header is right to the second.** A client that was told to come back after some seconds, and for
which nothing was let through since, is let through when it comes a second later than that, and is refused
when it comes earlier, unless it was told one second. -/
theorem retry_after_right (maxRequests window : Int) (paths : Option (List String)) (start : Rat) (before between : List Arrival)
    (a a' : Arrival) (seconds : Int)
    (h : Admitted step Forward (fresh maxRequests window paths start) (before ++ a :: (between ++ [a'])))
    (hrefused : ((run step (fresh maxRequests window paths start) before).middleware.dispatch a.request a.now).1 =
      .tooManyRequests seconds)
    (hquiet : Quiet (run step (fresh maxRequests window paths start) before)
      (run step (fresh maxRequests window paths start) (before ++ a :: between)) (clientIp a.request))
    (hclient : clientIp a'.request = clientIp a.request)
    (hlimited : (fresh maxRequests window paths start).middleware.shouldLimit a'.request.path = true) :
    (a.now + seconds + 1 ≤ a'.now → ((run step (fresh maxRequests window paths start)
        (before ++ a :: between)).middleware.dispatch a'.request a'.now).1 = .callNext) ∧
      (1 < seconds → a'.now < a.now + seconds → ((run step (fresh maxRequests window paths start)
        (before ++ a :: between)).middleware.dispatch a'.request a'.now).1 ≠ .callNext) := by
  have hsplit : before ++ a :: (between ++ [a']) = (before ++ a :: between) ++ [a'] := by simp
  obtain ⟨hbefore, ha, hbetween⟩ := Lib.admitted_append.mp h
  rw [hsplit] at h
  obtain ⟨hall, ha', -⟩ := Lib.admitted_append.mp h
  have hsound := sound_run hall
  refine (sound_run hbefore).retry ha hrefused hsound hquiet hclient ?_ ?_ ha'
  · rw [RateLimitMiddleware.shouldLimit, hsound.samePaths]
    exact hlimited
  · have hclock := clock_le_run (Lib.admitted_append.mp hbetween).1
    rw [Forward, Lib.run_append, Lib.run_cons] at ha'
    exact le_trans hclock ha'

theorem retry_after_right_third_login :
    ((loginAt 2).now + (58 : Int) + 1 ≤ (loginAt 61).now → ((run step (fresh 2 60 none 0)
        ([loginAt 0, loginAt 1] ++ loginAt 2 :: [])).middleware.dispatch (loginAt 61).request (loginAt 61).now).1 = .callNext) ∧
      ((1 : Int) < 58 → (loginAt 61).now < (loginAt 2).now + (58 : Int) → ((run step (fresh 2 60 none 0)
        ([loginAt 0, loginAt 1] ++ loginAt 2 :: [])).middleware.dispatch (loginAt 61).request (loginAt 61).now).1 ≠ .callNext) :=
  retry_after_right 2 60 none 0 [loginAt 0, loginAt 1] [] (loginAt 2) (loginAt 61) 58 (by decide +kernel) (by decide +kernel)
    (by unfold Quiet; decide +kernel) rfl rfl

end Traffic

end Occp.Api
