import Occp.Adapters.OpenClaw
import Occp.Lib.Places

/-!
# Chat completions find their calls

A call gets the end of its run where the receive loop leaves it the time to go on from the
acknowledgement, no two calls have one run, and no timer fires on a call that has its completion.
-/

namespace Occp.OpenClaw

open Lib (run Admitted getElem?_set_cases getElem?_concat_cases getElem?_concat_of_some)

/-! ## Whom a run belongs to -/

/-- The acknowledgement of the run has come, and the call has not gone on from it. -/
def Acknowledged (c : Call) (run : String) : Prop :=
  (c.stage = .sending ∨ c.stage = .acking ∧ c.expired = false) ∧ ∃ ack, c.ack = some (.ok ack) ∧ runId ack = run

/-- The call waits for the end of the run, or its time is up and it does not know yet. -/
def Waiting (c : Call) (run : String) : Prop := c.stage = .completing run ∧ c.completion = none

def Owns (c : Call) (run : String) : Prop := Acknowledged c run ∨ Waiting c run

/-- The payload is of the run that the call was acknowledged with. -/
def OfRun (c : Call) (payload : Dict Value) : Prop := ∃ ack, c.ack = some (.ok ack) ∧ runId payload = runId ack

/-- What a call has and returns is of its own run. -/
structure OwnRun (c : Call) : Prop where
  fresh : c.stage = .sending ∨ c.stage = .acking → c.completion = none
  late : ∀ run, c.stage = .completing run → c.expired = true → c.completion = none
  completing : ∀ run, c.stage = .completing run → run ≠ "" ∧ ∃ ack, c.ack = some (.ok ack) ∧ runId ack = run
  completion : ∀ payload, c.completion = some payload → OfRun c payload
  returned : ∀ payload, c.stage = .returned payload → OfRun c payload

/-- Each call that waits has the entry of its run, and no run has two calls. -/
structure Consistent (s : OpenClawConnection) : Prop where
  entry : ∀ run k, s.chatCompletions.get? run = some k → ∃ c, s.calls[k]? = some c ∧ Waiting c run
  waits : ∀ (k : Nat) c run, s.calls[k]? = some c → Waiting c run → c.expired = false →
    s.chatCompletions.get? run = some k
  unique : ∀ (j k : Nat) c d run, run ≠ "" → s.calls[j]? = some c → s.calls[k]? = some d → Owns c run → Owns d run →
    j = k
  own : ∀ (k : Nat) c, s.calls[k]? = some c → OwnRun c

/-- No end of a run comes before its call has gone on from the acknowledgement, no run is
acknowledged twice, and no timer fires on a call that has its completion. -/
def InOrder (s : OpenClawConnection) : Event → Prop
  | .receive (.chatFinal payload) => ∀ (k : Nat) c, s.calls[k]? = some c → ¬Acknowledged c (runId payload)
  | .receive (.res k (.ok ack)) =>
    ∀ (j : Nat) c, s.calls[j]? = some c → j ≠ k → runId ack ≠ "" → ¬Owns c (runId ack)
  | .timer k => ∀ c run, s.calls[k]? = some c → c.stage = .completing run → c.completion = none
  | _ => True

section Update

variable {s s' : OpenClawConnection} {k : Nat} {c c' : Call}

/-- One call changes, and no entry. -/
theorem Consistent.update (h : Consistent s) (hk : s.calls[k]? = some c) (hcalls : s'.calls = s.calls.set k c')
    (hentries : s'.chatCompletions = s.chatCompletions) (hwaiting : ∀ run, Waiting c' run ↔ Waiting c run)
    (hexpired : c'.expired = false → c.expired = false) (hown : OwnRun c')
    (hnew : ∀ run, run ≠ "" → Owns c' run →
      Owns c run ∨ ∀ (j : Nat) d, s.calls[j]? = some d → j ≠ k → ¬Owns d run) : Consistent s' := by
  have hlt := (List.getElem?_eq_some_iff.mp hk).1
  refine ⟨fun run k' hentry => ?_, fun k' d run hd hwaits hd' => ?_, fun i j d e run hrun hd he hdown heown => ?_,
    fun k' d hd => ?_⟩
  · rw [hentries] at hentry
    obtain ⟨d, hd, hwaits⟩ := h.entry run k' hentry
    rw [hcalls]
    by_cases heq : k' = k
    · subst heq
      obtain rfl : c = d := Option.some.inj (hk.symm.trans hd)
      exact ⟨c', List.getElem?_set_self hlt, (hwaiting run).mpr hwaits⟩
    · exact ⟨d, by rw [List.getElem?_set_ne (Ne.symm heq), hd], hwaits⟩
  · rw [hcalls] at hd
    rw [hentries]
    rcases getElem?_set_cases hd with ⟨rfl, rfl⟩ | ⟨-, hold⟩
    · exact h.waits k' c run hk ((hwaiting run).mp hwaits) (hexpired hd')
    · exact h.waits k' d run hold hwaits hd'
  · rw [hcalls] at hd he
    rcases getElem?_set_cases hd with ⟨rfl, rfl⟩ | ⟨hi, hd₀⟩
    · rcases getElem?_set_cases he with ⟨rfl, rfl⟩ | ⟨hj, he₀⟩
      · rfl
      · rcases hnew run hrun hdown with hcown | hnone
        · exact h.unique _ _ c e run hrun hk he₀ hcown heown
        · exact absurd heown (hnone _ e he₀ hj)
    · rcases getElem?_set_cases he with ⟨rfl, rfl⟩ | ⟨hj, he₀⟩
      · rcases hnew run hrun heown with hcown | hnone
        · exact h.unique _ _ d c run hrun hd₀ hk hdown hcown
        · exact absurd hdown (hnone _ d hd₀ hi)
      · exact h.unique _ _ d e run hrun hd₀ he₀ hdown heown
  · rw [hcalls] at hd
    rcases getElem?_set_cases hd with ⟨-, rfl⟩ | ⟨-, hold⟩
    · exact hown
    · exact h.own k' d hold

theorem Consistent.congr (h : Consistent s) (hcalls : s'.calls = s.calls)
    (hentries : s'.chatCompletions = s.chatCompletions) : Consistent s' := by
  refine ⟨?_, ?_, ?_, ?_⟩
  · rw [hcalls, hentries]
    exact h.entry
  · rw [hcalls, hentries]
    exact h.waits
  · rw [hcalls]
    exact h.unique
  · rw [hcalls]
    exact h.own

/-- A call that owns nothing new leaves every run to one call. -/
theorem Consistent.unique_set (h : Consistent s) (hk : s.calls[k]? = some c) (howns : ∀ r, Owns c' r → Owns c r)
    (i j : Nat) (d e : Call) (run : String) (hrun : run ≠ "") (hd : (s.calls.set k c')[i]? = some d)
    (he : (s.calls.set k c')[j]? = some e) (hdown : Owns d run) (heown : Owns e run) : i = j := by
  have hold {i : Nat} {d : Call} (hd : (s.calls.set k c')[i]? = some d) (hdown : Owns d run) :
      ∃ d₀, s.calls[i]? = some d₀ ∧ Owns d₀ run := by
    rcases getElem?_set_cases hd with ⟨rfl, rfl⟩ | ⟨-, hd⟩
    · exact ⟨c, hk, howns run hdown⟩
    · exact ⟨d, hd, hdown⟩
  obtain ⟨d₀, hd₀, hdown₀⟩ := hold hd hdown
  obtain ⟨e₀, he₀, heown₀⟩ := hold he heown
  exact h.unique i j d₀ e₀ run hrun hd₀ he₀ hdown₀ heown₀

/-- The entry of the call goes, and the call with it. -/
theorem Consistent.remove {run : String} (h : Consistent s) (hk : s.calls[k]? = some c) (hwaiting : Waiting c run)
    (hcalls : s'.calls = s.calls.set k c') (hentries : s'.chatCompletions = s.chatCompletions.pop run)
    (howns : ∀ r, Owns c' r → Owns c r) (hexpired : ∀ r, Waiting c' r → c'.expired = true) (hown : OwnRun c') :
    Consistent s' := by
  have hne : run ≠ "" := ((h.own k c hk).completing run hwaiting.1).1
  refine ⟨fun r k' hentry => ?_, fun k' d r hd hwaits hd' => ?_, fun i j d e r hr hd he hdown heown => ?_,
    fun k' d hd => ?_⟩
  · rw [hentries, Dict.get?_pop] at hentry
    split at hentry
    · cases hentry
    · next hother =>
      obtain ⟨d, hd, hwaits⟩ := h.entry r k' hentry
      refine ⟨d, ?_, hwaits⟩
      rw [hcalls, List.getElem?_set_ne, hd]
      rintro rfl
      obtain rfl : c = d := Option.some.inj (hk.symm.trans hd)
      exact hother (Stage.completing.inj (hwaits.1.symm.trans hwaiting.1))
  · rw [hcalls] at hd
    rw [hentries, Dict.get?_pop]
    rcases getElem?_set_cases hd with ⟨rfl, rfl⟩ | ⟨hother, hold⟩
    · have := hexpired r hwaits
      rw [hd'] at this
      cases this
    · rw [if_neg]
      · exact h.waits k' d r hold hwaits hd'
      · rintro rfl
        exact hother (h.unique k' k d c r hne hold hk (.inr hwaits) (.inr hwaiting))
  · rw [hcalls] at hd he
    exact h.unique_set hk howns i j d e r hr hd he hdown heown
  · rw [hcalls] at hd
    rcases getElem?_set_cases hd with ⟨-, rfl⟩ | ⟨-, hold⟩
    · exact hown
    · exact h.own k' d hold

theorem not_waiting_of_acknowledged {run r : String} (hack : Acknowledged c run) : ¬Waiting c r := by
  rintro ⟨hstage, -⟩
  rcases hack.1 with hsending | ⟨hacking, -⟩
  · rw [hsending] at hstage
    cases hstage
  · rw [hacking] at hstage
    cases hstage

/-- The call goes on from its acknowledgement. -/
theorem Consistent.register {run : String} (h : Consistent s) (hk : s.calls[k]? = some c) (hack : Acknowledged c run)
    (hne : run ≠ "") :
    Consistent
      ({ s with chatCompletions := s.chatCompletions.set run k }.setCall k { c with stage := .completing run }) := by
  have hlt := (List.getElem?_eq_some_iff.mp hk).1
  have hstage : c.stage = .sending ∨ c.stage = .acking := hack.1.imp_right (·.1)
  have hfresh := (h.own k c hk).fresh hstage
  have howns : ∀ r, Owns { c with stage := .completing run } r → r = run := by
    rintro r (⟨hstage' | ⟨hstage', -⟩, -⟩ | ⟨hstage', -⟩)
    · cases hstage'
    · cases hstage'
    · exact (Stage.completing.inj hstage').symm
  refine ⟨fun r k' hentry => ?_, fun k' d r hd hwaits hd' => ?_, fun i j d e r hr hd he hdown heown => ?_,
    fun k' d hd => ?_⟩
  · change (s.chatCompletions.set run k).get? r = some k' at hentry
    rw [Dict.get?_set] at hentry
    split at hentry
    · next heq =>
      obtain rfl := Option.some.inj hentry
      exact ⟨_, List.getElem?_set_self hlt, congrArg Stage.completing heq.symm, hfresh⟩
    · obtain ⟨d, hd, hwaits⟩ := h.entry r k' hentry
      refine ⟨d, ?_, hwaits⟩
      rw [OpenClawConnection.setCall, List.getElem?_set_ne, hd]
      rintro rfl
      obtain rfl : c = d := Option.some.inj (hk.symm.trans hd)
      exact not_waiting_of_acknowledged hack hwaits
  · change (s.chatCompletions.set run k).get? r = some k'
    rw [Dict.get?_set]
    rcases getElem?_set_cases hd with ⟨rfl, rfl⟩ | ⟨hother, hold⟩
    · rw [if_pos (howns r (.inr hwaits))]
    · rw [if_neg]
      · exact h.waits k' d r hold hwaits hd'
      · rintro rfl
        exact hother (h.unique k' k d c r hne hold hk (.inr hwaits) (.inl hack))
  · refine h.unique_set hk (fun r hown => ?_) i j d e r hr hd he hdown heown
    obtain rfl := howns r hown
    exact .inl hack
  · rcases getElem?_set_cases hd with ⟨-, rfl⟩ | ⟨-, hold⟩
    · refine ⟨fun _ => hfresh, fun _ _ _ => hfresh, fun r hr => ?_, fun payload hpayload => ?_, fun payload hr => ?_⟩
      · obtain rfl := Stage.completing.inj hr
        exact ⟨hne, hack.2⟩
      · rw [hfresh] at hpayload
        cases hpayload
      · cases hr
    · exact h.own k' d hold

/-- A call that waits for nothing and never will again. -/
theorem Consistent.settle (h : Consistent s) (hk : s.calls[k]? = some c) (hcalls : s'.calls = s.calls.set k c')
    (hentries : s'.chatCompletions = s.chatCompletions) (hwaiting : ∀ run, ¬Waiting c run)
    (hsame : c'.completion = c.completion) (hack : c'.ack = c.ack)
    (hstage : ∀ run, c'.stage ≠ .completing run) (hstage' : c'.stage ≠ .sending ∧ c'.stage ≠ .acking)
    (hreturned : ∀ payload, c'.stage = .returned payload → OfRun c payload) (hexpired : c'.expired = c.expired) :
    Consistent s' := by
  have hown := h.own k c hk
  refine h.update hk hcalls hentries (fun run => ?_) (fun hc' => hexpired ▸ hc') ⟨?_, ?_, ?_, ?_, ?_⟩ ?_
  · exact iff_of_false (fun hc' => hstage run hc'.1) (hwaiting run)
  · rintro (hsending | hacking)
    · exact absurd hsending hstage'.1
    · exact absurd hacking hstage'.2
  · exact fun run hrun => absurd hrun (hstage run)
  · exact fun run hrun => absurd hrun (hstage run)
  · intro payload hpayload
    unfold OfRun
    rw [hack]
    exact hown.completion payload (hsame ▸ hpayload)
  · intro payload hpayload
    unfold OfRun
    rw [hack]
    exact hreturned payload hpayload
  · rintro run - (⟨hsending | ⟨hacking, -⟩, -⟩ | ⟨hcompleting, -⟩)
    · exact absurd hsending hstage'.1
    · exact absurd hacking hstage'.2
    · exact absurd hcompleting (hstage run)

end Update

/-! ## Each step in order keeps the runs apart -/

section Step

variable {s : OpenClawConnection} {k : Nat} {c : Call}

theorem Consistent.resolveAck {s' : OpenClawConnection} (h : Consistent s) (k : Nat)
    (reply : Except String (Dict Value)) (hcalls : s'.calls = OpenClawConnection.resolveAck reply k s.calls)
    (hentries : s'.chatCompletions = s.chatCompletions)
    (hnew : ∀ ack, reply = .ok ack → runId ack ≠ "" →
      ∀ (j : Nat) d, s.calls[j]? = some d → j ≠ k → ¬Owns d (runId ack)) : Consistent s' := by
  unfold OpenClawConnection.resolveAck at hcalls
  split at hcalls
  · next c hk =>
    split at hcalls
    · exact h.congr hcalls hentries
    · next hopen =>
      have hack : c.ack = none := by
        simp only [Bool.or_eq_true, not_or, Option.not_isSome_iff_eq_none] at hopen
        exact hopen.1
      have hown := h.own k c hk
      have hnone : ∀ payload, ¬OfRun c payload := by
        rintro payload ⟨ack, hsome, -⟩
        rw [hack] at hsome
        cases hsome
      refine h.update hk hcalls hentries (fun _ => Iff.rfl) id ⟨hown.fresh, hown.late, ?_, ?_, ?_⟩ ?_
      · intro run hrun
        obtain ⟨-, ack, hsome, -⟩ := hown.completing run hrun
        rw [hack] at hsome
        cases hsome
      · exact fun payload hpayload => absurd (hown.completion payload hpayload) (hnone payload)
      · exact fun payload hpayload => absurd (hown.returned payload hpayload) (hnone payload)
      · rintro run hrun (⟨-, ack, hsome, rfl⟩ | hwaits)
        · exact .inr (hnew ack (Option.some.inj hsome) hrun)
        · exact .inl (.inr hwaits)
  · exact h.congr hcalls hentries

@[simp] theorem runId_assembled (payload : Dict Value) : runId (s.assembled payload) = runId payload := by
  unfold OpenClawConnection.assembled
  split
  · unfold runId
    rw [Dict.get?_set_of_ne _ _ _ _ (by decide)]
  · rfl

theorem Consistent.receiveFinal (h : Consistent s) (payload : Dict Value) : Consistent (s.receiveFinal payload) := by
  unfold OpenClawConnection.receiveFinal
  dsimp only
  split
  · exact h
  · split
    · exact h
    · next k hentry =>
      obtain ⟨c, hk, hwaits⟩ := h.entry _ k hentry
      have hown := h.own k c hk
      rw [hk]
      dsimp only
      split
      · next hdone =>
        have hexpired : c.expired = true := by simpa [hwaits.2] using hdone
        have hsame : s.calls = s.calls.set k c := by
          obtain ⟨hlt, rfl⟩ := List.getElem?_eq_some_iff.mp hk
          exact (List.set_getElem_self hlt).symm
        exact h.remove hk hwaits hsame rfl (fun _ => id) (fun _ _ => hexpired) hown
      · next hopen =>
        have hexpired : c.expired = false := by simpa [hwaits.2] using hopen
        obtain ⟨-, ack, hack, hrun⟩ := hown.completing _ hwaits.1
        refine h.remove hk hwaits rfl rfl ?_ ?_ ⟨?_, ?_, hown.completing, ?_, hown.returned⟩
        · rintro r (hacked | hwaits')
          · exact .inl hacked
          · cases hwaits'.2
        · rintro r hwaits'
          cases hwaits'.2
        · rintro (hsending | hacking)
          · cases hwaits.1.symm.trans hsending
          · cases hwaits.1.symm.trans hacking
        · intro r _ hlate
          rw [hexpired] at hlate
          cases hlate
        · intro payload' hpayload'
          obtain rfl := Option.some.inj hpayload'
          exact ⟨ack, hack, (runId_assembled payload).trans hrun.symm⟩

theorem Consistent.afterAck (h : Consistent s) (hk : s.calls[k]? = some c)
    (hstage : c.stage = .sending ∨ c.stage = .acking ∧ c.expired = false) {reply : Except String (Dict Value)}
    (hreply : c.ack = some reply) : Consistent (s.afterAck k c reply) := by
  have hwaiting : ∀ run, ¬Waiting c run := by
    rintro run ⟨hcompleting, -⟩
    rcases hstage with hsending | ⟨hacking, -⟩
    · cases hsending.symm.trans hcompleting
    · cases hacking.symm.trans hcompleting
  unfold OpenClawConnection.afterAck
  split
  · refine h.settle hk rfl rfl hwaiting rfl rfl ?_ ?_ ?_ rfl
    · simp
    · simp
    · simp
  · next ack =>
    dsimp only
    split
    · refine h.settle hk rfl rfl hwaiting rfl rfl ?_ ?_ ?_ rfl
      · simp
      · simp
      · rintro payload hpayload
        obtain rfl := Stage.returned.inj hpayload
        exact ⟨ack, hreply, rfl⟩
    · next hne => exact h.register hk ⟨hstage, ack, hreply, rfl⟩ hne

theorem Consistent.resume (h : Consistent s) (k : Nat) (sent : Bool) : Consistent (s.resume k sent) := by
  unfold OpenClawConnection.resume
  split
  · exact h
  · next c hk =>
    have hown := h.own k c hk
    split
    · next hstage =>
      have hwaiting : ∀ run, ¬Waiting c run := fun run hwaits => by cases hstage.symm.trans hwaits.1
      split
      · split
        · next hack => exact h.afterAck hk (.inl hstage) hack
        · next hack =>
          refine h.update hk rfl rfl (fun run => ?_) id ⟨fun _ => hown.fresh (.inl hstage), ?_, ?_, hown.completion, ?_⟩ ?_
          · exact iff_of_false (fun hwaits => by cases hwaits.1) (hwaiting run)
          · simp
          · simp
          · simp
          · rintro run - (⟨-, ack, hsome, -⟩ | hwaits)
            · rw [hack] at hsome
              cases hsome
            · cases hwaits.1
      · exact h.settle hk rfl rfl hwaiting rfl rfl (by simp) (by simp) (by simp) rfl
    · next hstage =>
      have hwaiting : ∀ run, ¬Waiting c run := fun run hwaits => by cases hstage.symm.trans hwaits.1
      split
      · exact h.settle hk rfl rfl hwaiting rfl rfl (by simp) (by simp) (by simp) rfl
      · next hexpired =>
        rw [Bool.not_eq_true] at hexpired
        split
        · next hack => exact h.afterAck hk (.inr ⟨hstage, hexpired⟩) hack
        · exact h
    · next run hstage =>
      split
      · next hexpired =>
        have hwaits : Waiting c run := ⟨hstage, hown.late run hstage hexpired⟩
        refine h.remove hk hwaits rfl rfl ?_ ?_ ⟨?_, ?_, ?_, hown.completion, ?_⟩
        · rintro r (⟨hsending | ⟨hacking, -⟩, -⟩ | ⟨hcompleting, -⟩)
          · cases hsending
          · cases hacking
          · cases hcompleting
        · rintro r ⟨hcompleting, -⟩
          cases hcompleting
        · simp
        · simp
        · simp
        · simp
      · split
        · next payload hcompletion =>
          refine h.settle hk rfl rfl ?_ rfl rfl (by simp) (by simp) ?_ rfl
          · rintro r ⟨-, hnone⟩
            rw [hcompletion] at hnone
            cases hnone
          · rintro payload' hpayload'
            obtain rfl := Stage.returned.inj hpayload'
            exact hown.completion payload hcompletion
        · exact h
    · exact h
    · exact h

theorem Consistent.timer (h : Consistent s) (hdone : ∀ c run, s.calls[k]? = some c → c.stage = .completing run →
    c.completion = none) : Consistent (s.timer k) := by
  unfold OpenClawConnection.timer
  split
  · exact h
  · next c hk =>
    have hown := h.own k c hk
    have hlate : ∀ run, c.stage = .completing run → c.completion = none := fun run => hdone c run hk
    have hexpire : Consistent (s.setCall k { c with expired := true }) := by
      refine h.update hk rfl rfl (fun _ => Iff.rfl) (by simp)
        ⟨hown.fresh, fun run hrun _ => hlate run hrun, hown.completing, hown.completion, hown.returned⟩ ?_
      rintro run - (⟨hsending | ⟨-, hfalse⟩, hack⟩ | hwaits)
      · exact .inl (.inl ⟨.inl hsending, hack⟩)
      · cases hfalse
      · exact .inl (.inr hwaits)
    split
    · exact hexpire
    · exact hexpire
    · exact h
    · exact h
    · exact h

theorem Consistent.concat {s' : OpenClawConnection} (h : Consistent s) (hcalls : s'.calls = s.calls ++ [c]) (hentries : s'.chatCompletions = s.chatCompletions)
    (hack : c.ack = none) (hcompletion : c.completion = none)
    (hstage : c.stage = .sending ∨ ∃ error, c.stage = .raised error) : Consistent s' := by
  have hidle : ∀ run, c.stage ≠ .completing run := by
    rintro run hrun
    rcases hstage with hsending | ⟨error, hraised⟩
    · cases hsending.symm.trans hrun
    · cases hraised.symm.trans hrun
  have hnone : ∀ run, ¬Owns c run := by
    rintro run (⟨-, ack, hsome, -⟩ | ⟨hcompleting, -⟩)
    · rw [hack] at hsome
      cases hsome
    · exact hidle run hcompleting
  refine ⟨fun run k hentry => ?_, fun k d run hd hwaits hd' => ?_, fun i j d e run hrun hd he hdown heown => ?_,
    fun k d hd => ?_⟩
  · rw [hentries] at hentry
    obtain ⟨d, hd, hwaits⟩ := h.entry run k hentry
    exact ⟨d, by rw [hcalls, getElem?_concat_of_some hd], hwaits⟩
  · rw [hcalls] at hd
    rw [hentries]
    rcases getElem?_concat_cases hd with ⟨-, rfl⟩ | hold
    · exact absurd (.inr hwaits) (hnone run)
    · exact h.waits k d run hold hwaits hd'
  · rw [hcalls] at hd he
    rcases getElem?_concat_cases hd with ⟨-, rfl⟩ | hd₀
    · exact absurd hdown (hnone run)
    · rcases getElem?_concat_cases he with ⟨-, rfl⟩ | he₀
      · exact absurd heown (hnone run)
      · exact h.unique i j d e run hrun hd₀ he₀ hdown heown
  · rw [hcalls] at hd
    rcases getElem?_concat_cases hd with ⟨-, rfl⟩ | hold
    · refine ⟨fun _ => hcompletion, fun run hrun => absurd hrun (hidle run), fun run hrun => absurd hrun (hidle run),
        fun payload hpayload => ?_, fun payload hpayload => ?_⟩
      · rw [hcompletion] at hpayload
        cases hpayload
      · rcases hstage with hsending | ⟨error, hraised⟩
        · cases hsending.symm.trans hpayload
        · cases hraised.symm.trans hpayload
    · exact h.own k d hold

theorem Consistent.sendChat (h : Consistent s) : Consistent s.sendChat := by
  unfold OpenClawConnection.sendChat
  split
  · exact h.concat rfl rfl rfl rfl (.inl rfl)
  · exact h.concat rfl rfl rfl rfl (.inr ⟨_, rfl⟩)

theorem Consistent.connectionLost (h : Consistent s) : Consistent s.connectionLost := by
  have hfold : ∀ (pending : List Nat) (s₀ : OpenClawConnection), Consistent s₀ → ∀ s' : OpenClawConnection,
      s'.calls = pending.foldl (fun calls k => OpenClawConnection.resolveAck (.error "Connection lost") k calls)
        s₀.calls → s'.chatCompletions = s₀.chatCompletions → Consistent s' := by
    intro pending
    induction pending with
    | nil => exact fun s₀ h₀ s' hcalls hentries => h₀.congr hcalls hentries
    | cons k pending ih =>
      intro s₀ h₀ s' hcalls hentries
      have hnext : Consistent
          { s₀ with calls := OpenClawConnection.resolveAck (.error "Connection lost") k s₀.calls } :=
        h₀.resolveAck k _ rfl rfl (by simp)
      exact ih _ hnext s' hcalls hentries
  exact hfold s.pending s h _ rfl rfl

theorem Consistent.step (h : Consistent s) {e : Event} (he : InOrder s e) : Consistent (step s e) := by
  cases e with
  | sendChat => exact h.sendChat
  | resume k sent => exact h.resume k sent
  | timer k => exact h.timer he
  | receive m =>
    unfold OpenClaw.step
    dsimp only
    split
    · cases m with
      | res k reply =>
        unfold OpenClawConnection.receive OpenClawConnection.receiveRes
        dsimp only
        split
        · refine h.resolveAck k reply rfl rfl ?_
          rintro ack rfl hrun j d hd hne
          exact he j d hd hne hrun
        · exact h
      | agent run text =>
        unfold OpenClawConnection.receive OpenClawConnection.receiveAgent
        dsimp only
        split
        · exact h
        · exact h.congr rfl rfl
      | chatFinal payload => exact h.receiveFinal payload
      | other => exact h
    · exact h
  | connectionLost => exact h.connectionLost
  | reconnected => exact h.congr rfl rfl

/-! ## A call that has its completion -/

/-- Once acknowledged, a call that waits for no run is left to itself. -/
theorem resolveAck_of_acked {calls : List Call} (hk : calls[k]? = some c) (hack : c.ack.isSome = true) (j : Nat)
    (reply : Except String (Dict Value)) : (OpenClawConnection.resolveAck reply j calls)[k]? = some c := by
  unfold OpenClawConnection.resolveAck
  split
  · next d hd =>
    split
    · exact hk
    · next hopen =>
      rw [List.getElem?_set_ne, hk]
      rintro rfl
      obtain rfl : c = d := Option.some.inj (hk.symm.trans hd)
      simp [hack] at hopen
  · exact hk

theorem setCall_other {j : Nat} {d : Call} (hk : s.calls[k]? = some c) (hne : j ≠ k) : (s.setCall j d).calls[k]? = some c := by
  rw [OpenClawConnection.setCall, List.getElem?_set_ne hne, hk]

theorem afterAck_other {j : Nat} {d : Call} (hk : s.calls[k]? = some c) (hne : j ≠ k)
    (reply : Except String (Dict Value)) : (s.afterAck j d reply).calls[k]? = some c := by
  unfold OpenClawConnection.afterAck
  split
  · exact setCall_other hk hne
  · dsimp only
    split
    · exact setCall_other hk hne
    · exact setCall_other hk hne

theorem resume_other {j : Nat} (hk : s.calls[k]? = some c) (hne : j ≠ k) (sent : Bool) :
    (s.resume j sent).calls[k]? = some c := by
  unfold OpenClawConnection.resume
  split
  · exact hk
  · split
    · split
      · split
        · exact afterAck_other hk hne _
        · exact setCall_other hk hne
      · exact setCall_other hk hne
    · split
      · exact setCall_other hk hne
      · split
        · exact afterAck_other hk hne _
        · exact hk
    · split
      · exact setCall_other hk hne
      · split
        · exact setCall_other hk hne
        · exact hk
    · exact hk
    · exact hk

theorem timer_other {j : Nat} (hk : s.calls[k]? = some c) (hne : j ≠ k) : (s.timer j).calls[k]? = some c := by
  unfold OpenClawConnection.timer
  split
  · exact hk
  · split
    · exact setCall_other hk hne
    · exact setCall_other hk hne
    · exact hk
    · exact hk
    · exact hk

theorem receive_other (h : Consistent s) (hk : s.calls[k]? = some c) (hack : c.ack.isSome = true)
    (hwaiting : ∀ run, ¬Waiting c run) (m : Message) : (s.receive m).calls[k]? = some c := by
  unfold OpenClawConnection.receive
  split
  · unfold OpenClawConnection.receiveRes
    split
    · exact resolveAck_of_acked hk hack _ _
    · exact hk
  · unfold OpenClawConnection.receiveAgent
    split
    · exact hk
    · exact hk
  · unfold OpenClawConnection.receiveFinal
    dsimp only
    split
    · exact hk
    · split
      · exact hk
      · next j hentry =>
        obtain ⟨d, hd, hwaits⟩ := h.entry _ j hentry
        rw [hd]
        dsimp only
        split
        · exact hk
        · refine setCall_other hk ?_
          rintro rfl
          obtain rfl : c = d := Option.some.inj (hk.symm.trans hd)
          exact hwaiting _ hwaits
  · exact hk

theorem step_other (h : Consistent s) (hk : s.calls[k]? = some c) (hack : c.ack.isSome = true)
    (hwaiting : ∀ run, ¬Waiting c run) {e : Event} (hresume : ∀ sent, e ≠ .resume k sent) (htimer : e ≠ .timer k) :
    (step s e).calls[k]? = some c := by
  cases e with
  | sendChat =>
    unfold OpenClaw.step OpenClawConnection.sendChat
    dsimp only
    split
    · exact getElem?_concat_of_some hk
    · exact getElem?_concat_of_some hk
  | resume j sent =>
    refine resume_other hk ?_ sent
    rintro rfl
    exact hresume sent rfl
  | timer j =>
    refine timer_other hk ?_
    rintro rfl
    exact htimer rfl
  | receive m =>
    unfold OpenClaw.step
    dsimp only
    split
    · exact receive_other h hk hack hwaiting m
    · exact hk
  | connectionLost =>
    unfold OpenClaw.step OpenClawConnection.connectionLost
    dsimp only
    have hfold : ∀ (pending : List Nat) (calls : List Call), calls[k]? = some c →
        (pending.foldl (fun calls k => OpenClawConnection.resolveAck (.error "Connection lost") k calls) calls)[k]? =
          some c := by
      intro pending
      induction pending with
      | nil => exact fun calls hcalls => hcalls
      | cons j pending ih => exact fun calls hcalls => ih _ (resolveAck_of_acked hcalls hack j _)
    exact hfold s.pending s.calls hk
  | reconnected => exact hk

/-- The call at `k` has its completion in time, or has returned it. -/
def Given (k : Nat) (payload : Dict Value) (s : OpenClawConnection) : Prop :=
  ∃ c, s.calls[k]? = some c ∧ c.ack.isSome = true ∧
    (c.stage = .returned payload ∨
      ∃ run, c.stage = .completing run ∧ c.completion = some payload ∧ c.expired = false)

def Event.resumes (k : Nat) : Event → Bool
  | .resume j _ => j = k
  | _ => false

def Returned (k : Nat) (payload : Dict Value) (s : OpenClawConnection) : Prop :=
  ∃ c, s.calls[k]? = some c ∧ c.ack.isSome = true ∧ c.stage = .returned payload

theorem Returned.step {payload : Dict Value} (hs : Consistent s) (h : Returned k payload s) (e : Event) :
    Returned k payload (step s e) := by
  obtain ⟨c, hk, hack, hstage⟩ := h
  refine ⟨c, ?_, hack, hstage⟩
  have hwaiting : ∀ run, ¬Waiting c run := fun run hwaits => by cases hstage.symm.trans hwaits.1
  by_cases hown : e.resumes k = true ∨ e = .timer k
  · rcases hown with hresume | rfl
    · cases e with
      | resume j sent =>
        obtain rfl : j = k := by simpa [Event.resumes] using hresume
        unfold OpenClaw.step OpenClawConnection.resume
        simp only [hk, hstage]
      | _ => cases hresume
    · unfold OpenClaw.step OpenClawConnection.timer
      simp only [hk, hstage]
  · rw [not_or] at hown
    refine step_other hs hk hack hwaiting ?_ hown.2
    rintro sent rfl
    exact hown.1 (by simp [Event.resumes])

theorem Given.step {payload : Dict Value} (hs : Consistent s) (h : Given k payload s) {e : Event} (he : InOrder s e) :
    Given k payload (step s e) ∧ (e.resumes k = true → Returned k payload (step s e)) := by
  obtain ⟨c, hk, hack, hstage | ⟨run, hstage, hcompletion, hexpired⟩⟩ := h
  · have hreturned := Returned.step hs ⟨c, hk, hack, hstage⟩ e
    obtain ⟨d, hd, hack', hstage'⟩ := hreturned
    exact ⟨⟨d, hd, hack', .inl hstage'⟩, fun _ => ⟨d, hd, hack', hstage'⟩⟩
  · by_cases hresume : e.resumes k = true
    · cases e with
      | resume j sent =>
        obtain rfl : j = k := by simpa [Event.resumes] using hresume
        have hreturned : Returned j payload (OpenClaw.step s (.resume j sent)) := by
          refine ⟨{ c with stage := .returned payload }, ?_, hack, rfl⟩
          unfold OpenClaw.step OpenClawConnection.resume
          simp only [hk, hstage, hexpired, hcompletion, Bool.false_eq_true, if_false]
          exact List.getElem?_set_self (List.getElem?_eq_some_iff.mp hk).1
        obtain ⟨d, hd, hack', hstage'⟩ := hreturned
        exact ⟨⟨d, hd, hack', .inl hstage'⟩, fun _ => ⟨d, hd, hack', hstage'⟩⟩
      | _ => cases hresume
    · refine ⟨⟨c, ?_, hack, .inr ⟨run, hstage, hcompletion, hexpired⟩⟩, fun h => absurd h hresume⟩
      refine step_other hs hk hack ?_ ?_ ?_
      · rintro r ⟨-, hnone⟩
        rw [hcompletion] at hnone
        cases hnone
      · rintro sent rfl
        exact hresume (by simp [Event.resumes])
      · rintro rfl
        rw [he c run hk hstage] at hcompletion
        cases hcompletion

theorem receiveFinal_given (h : Consistent s) {payload : Dict Value} (hk : s.calls[k]? = some c)
    (hne : runId payload ≠ "") (hwaits : Waiting c (runId payload)) (hexpired : c.expired = false) :
    Given k (s.assembled payload) (s.receiveFinal payload) := by
  obtain ⟨-, ack, hack, -⟩ := (h.own k c hk).completing _ hwaits.1
  refine ⟨{ c with completion := some (s.assembled payload) }, ?_, ?_, .inr ⟨_, hwaits.1, rfl, hexpired⟩⟩
  · unfold OpenClawConnection.receiveFinal
    simp only [hne, h.waits k c _ hk hwaits hexpired, hk, hwaits.2, hexpired, if_false, Option.isSome_none,
      Bool.or_self, Bool.false_eq_true]
    exact List.getElem?_set_self (List.getElem?_eq_some_iff.mp hk).1
  · dsimp only
    rw [hack]
    rfl

end Step

/-! ## Every run -/

section Runs

variable {k : Nat} {s : OpenClawConnection} {payload : Dict Value}

theorem returned_run {events : List Event} (hs : Consistent s) (h : Admitted step InOrder s events)
    (hreturned : Returned k payload s) : Returned k payload (run step s events) := by
  induction events generalizing s with
  | nil => exact hreturned
  | cons e events ih => exact ih (hs.step h.1) h.2 (hreturned.step hs e)

theorem given_run {events : List Event} (hs : Consistent s) (h : Admitted step InOrder s events)
    (hgiven : Given k payload s) :
    Given k payload (run step s events) ∧
      (0 < events.countP (Event.resumes k) → Returned k payload (run step s events)) := by
  induction events generalizing s with
  | nil => exact ⟨hgiven, fun hcount => absurd hcount (by simp)⟩
  | cons e events ih =>
    obtain ⟨hnext, hresumed⟩ := hgiven.step hs h.1
    obtain ⟨hend, hlater⟩ := ih (hs.step h.1) h.2 hnext
    refine ⟨hend, fun hcount => ?_⟩
    by_cases he : e.resumes k = true
    · rw [Lib.run_cons]
      exact returned_run (hs.step h.1) h.2 (hresumed he)
    · rw [List.countP_cons_of_neg he] at hcount
      exact hlater hcount

/-- Every end of a run that comes in time is what its call returns, and no call returns another's. -/
structure NoCompletionLost (events : List Event) : Prop where
  /-- A call needs two steps of its own at most to get from its acknowledgement to its end. -/
  delivered : ∀ before payload after k c, events = before ++ .receive (.chatFinal payload) :: after →
    (history before).connected = true → (history before).calls[k]? = some c → runId payload ≠ "" →
    Owns c (runId payload) → c.expired = false →
    ∃ d, (history events).calls[k]? = some d ∧ (∀ error, d.stage ≠ .raised error) ∧
      (∀ result, d.stage = .returned result → result = (history before).assembled payload) ∧
      (2 ≤ after.countP (Event.resumes k) → d.stage = .returned ((history before).assembled payload))
  own : ∀ (k : Nat) c payload, (history events).calls[k]? = some c → c.stage = .returned payload → OfRun c payload

theorem consistent_empty : Consistent {} := by
  refine ⟨?_, ?_, ?_, ?_⟩
  · rintro run k ⟨⟩
  · rintro k c run ⟨⟩
  · rintro j k c d run - ⟨⟩
  · rintro k c ⟨⟩

theorem consistent_history {events : List Event} (h : Admitted step InOrder {} events) : Consistent (history events) :=
  h.invariant Consistent consistent_empty fun _ _ hs he => hs.step he

theorem no_completion_lost (events : List Event) (h : Admitted step InOrder {} events) : NoCompletionLost events := by
  refine ⟨fun before payload after k c hsplit hconnected hk hne howns hexpired => ?_, fun k c payload hk hreturned => ?_⟩
  · subst hsplit
    obtain ⟨hbefore, he, hafter⟩ := Lib.admitted_append.mp h
    have hs := consistent_history hbefore
    have hwaits : Waiting c (runId payload) := howns.resolve_left (he k c hk)
    have hgiven : Given k ((history before).assembled payload)
        (step (history before) (.receive (.chatFinal payload))) := by
      unfold step
      dsimp only
      rw [if_pos hconnected]
      exact receiveFinal_given hs hk hne hwaits hexpired
    obtain ⟨⟨d, hd, -, hstage⟩, hreturned⟩ := given_run (hs.step he) hafter hgiven
    have hend : history (before ++ .receive (.chatFinal payload) :: after) =
        run step (step (history before) (.receive (.chatFinal payload))) after := by
      unfold history run
      rw [List.foldl_append, List.foldl_cons]
    rw [hend]
    refine ⟨d, hd, fun error hraised => ?_, fun result hresult => ?_, fun hcount => ?_⟩
    · rcases hstage with hstage | ⟨run, hstage, -⟩
      · cases hstage.symm.trans hraised
      · cases hstage.symm.trans hraised
    · rcases hstage with hstage | ⟨run, hstage, -⟩
      · exact Stage.returned.inj (hresult.symm.trans hstage)
      · cases hstage.symm.trans hresult
    · obtain ⟨d', hd', -, hstage'⟩ := hreturned (by omega)
      obtain rfl : d = d' := Option.some.inj (hd.symm.trans hd')
      exact hstage'
  · exact ((consistent_history h).own k c hk).returned payload hreturned

end Runs

/-! A call that is back from its acknowledgement when its run ends, and one that is not. -/

def acknowledged : Dict Value := [("runId", .str "r"), ("status", .str "started")]

def ended : Dict Value := [("runId", .str "r"), ("state", .str "final")]

def inOrder : List Event :=
  [.sendChat, .resume 0 true, .receive (.res 0 (.ok acknowledged)), .resume 0 true, .receive (.chatFinal ended),
    .resume 0 true]

theorem inOrder_delivered : NoCompletionLost inOrder := by
  refine no_completion_lost inOrder ⟨trivial, trivial, ?_, trivial, ?_, trivial, trivial⟩
  · rintro (_ | j) c hj hne -
    · exact absurd rfl hne
    · cases hj
  · rintro (_ | j) c hj ⟨hsending | ⟨hacking, -⟩, -⟩
    · obtain rfl := Option.some.inj hj
      cases hsending
    · obtain rfl := Option.some.inj hj
      cases hacking
    · cases hj
    · cases hj

def backToBack : List Event :=
  [.sendChat, .resume 0 true, .receive (.res 0 (.ok acknowledged)), .receive (.chatFinal ended), .resume 0 true,
    .timer 0, .resume 0 true]

theorem backToBack_lost : ¬∀ events, NoCompletionLost events := by
  intro h
  obtain ⟨d, hd, hnot, -⟩ := (h backToBack).delivered
    [.sendChat, .resume 0 true, .receive (.res 0 (.ok acknowledged))] ended [.resume 0 true, .timer 0, .resume 0 true]
    0 _ rfl rfl rfl (by decide) (.inl ⟨.inr ⟨rfl, rfl⟩, acknowledged, rfl, rfl⟩) rfl
  obtain rfl := Option.some.inj hd
  exact hnot _ rfl

end Occp.OpenClaw
