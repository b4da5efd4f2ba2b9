import Occp.Lib.Projection
import Occp.Orchestrator.DispatchOnce

/-!
# The conversations of different users

`_get_or_create_conversation` hands out any live conversation whose id it is given. As long
as nobody asks for one of somebody else's, what one user has in the engine goes through the
calls of that user alone.
-/

namespace Occp.BrainFlow

namespace BrainConversation

variable {route : String → RouteDecision} {conv conv' : BrainConversation} {message : String}
  {handled : Option Handled}

theorem handleIntake_userId (conv : BrainConversation) (message : String) :
    (conv.handleIntake route message).1.userId = conv.userId := by
  unfold handleIntake
  dsimp only
  split
  · rfl
  · exact createPlan_userId _ _

theorem handleUnderstand_userId (conv : BrainConversation) (message : String) :
    (conv.handleUnderstand route message).1.userId = conv.userId := by
  unfold handleUnderstand
  dsimp only
  split
  · exact createPlan_userId _ _
  · split
    · exact createPlan_userId _ _
    · rfl

theorem handleConfirm_userId (conv : BrainConversation) (message : String) :
    (conv.handleConfirm route message).1.userId = conv.userId := by
  unfold handleConfirm
  repeat' split
  all_goals first | rfl | exact createPlan_userId _ _

theorem handleMonitor_userId (conv : BrainConversation) (message : String) :
    (conv.handleMonitor message).1.userId = conv.userId := by
  unfold handleMonitor
  repeat' split
  all_goals rfl

theorem handleDeliver_userId (conv : BrainConversation) (message : String) :
    (conv.handleDeliver message).1.userId = conv.userId := by
  unfold handleDeliver
  split <;> rfl

/-- No handler gives a conversation away. -/
theorem handle_userId (h : conv.handle route message = some (conv', handled)) : conv'.userId = conv.userId := by
  unfold handle at h
  split at h
  case h_1 =>
    obtain ⟨rfl, -⟩ := by simpa [Prod.ext_iff] using h
    exact handleIntake_userId _ _
  case h_2 =>
    obtain ⟨rfl, -⟩ := by simpa [Prod.ext_iff] using h
    exact handleUnderstand_userId _ _
  case h_3 =>
    obtain ⟨rfl, -⟩ := by simpa [Prod.ext_iff] using h
    exact handleConfirm_userId _ _
  case h_4 =>
    obtain ⟨rfl, -⟩ := by simpa [Prod.ext_iff] using h
    exact handleMonitor_userId _ _
  case h_5 =>
    obtain ⟨rfl, -⟩ := by simpa [Prod.ext_iff] using h
    exact handleMonitor_userId _ _
  case h_6 =>
    obtain ⟨rfl, -⟩ := by simpa [Prod.ext_iff] using h
    exact handleDeliver_userId _ _
  all_goals cases h

end BrainConversation

/-! ## Who owns what -/

def Note.conversationId : Note → String
  | received _ c .. | routed _ c .. | dispatched _ c .. | ran _ c .. => c

namespace Engine

def owns (s : Engine) (user c : String) : Bool := (s.objects c).any fun conv => conv.userId = user

/-- Everybody's lists, calls and notes are about their own conversations. -/
structure Owned (s : Engine) : Prop where
  lists : ∀ user, ∀ c ∈ s.userConversations user, s.owns user c = true
  calls : ∀ id call, s.call? id = some call → s.owns id.user call.conversationId = true
  notes : ∀ n ∈ s.log, s.owns n.call.user n.conversationId = true

variable {s : Engine} {user u c : String} {id : CallId} {conv old : BrainConversation}

theorem owns_iff : s.owns user c = true ↔ ∃ conv, s.objects c = some conv ∧ conv.userId = user := by
  simp [owns, Option.any_eq_true]

theorem owns_eq (hconv : s.objects c = some conv) : s.owns user c = decide (conv.userId = user) := by
  rw [owns, hconv, Option.any_some]

theorem owns_put (hconv : s.objects c = some old) (huser : conv.userId = old.userId) (user c' : String) :
    (s.put c conv).owns user c' = s.owns user c' := by
  by_cases hc : c' = c
  · subst hc
    rw [owns_eq (s.objects_put_self c' conv), owns_eq hconv, huser]
  · simp [owns, hc]

theorem owns_create_self (s : Engine) (user c : String) (now : Int) :
    (s.createConversation user c now).owns user c = true := by
  simp [owns]

theorem owns_create (hfresh : s.objects c = none) (now : Int) {v c' : String} (h : s.owns v c' = true) :
    (s.createConversation user c now).owns v c' = true := by
  obtain ⟨conv, hconv, huser⟩ := owns_iff.mp h
  refine owns_iff.mpr ⟨conv, ?_, huser⟩
  rw [objects_createConversation, if_neg, hconv]
  rintro rfl
  rw [hfresh] at hconv
  cases hconv

theorem Owned.put (h : s.Owned) (hconv : s.objects c = some old) (huser : conv.userId = old.userId) :
    (s.put c conv).Owned where
  lists v c' hmem := by
    rw [owns_put hconv huser]
    exact h.lists v c' hmem
  calls id call hcall := by
    rw [owns_put hconv huser]
    exact h.calls id call hcall
  notes n hn := by
    rw [owns_put hconv huser]
    exact h.notes n hn

theorem Owned.await (h : s.Owned) (hc : s.owns id.user c = true) (stage : Stage) : (s.await id c stage).Owned where
  lists := h.lists
  calls id' call hcall := by
    rw [call?_await] at hcall
    split at hcall
    · next heq =>
      subst heq
      cases hcall
      exact hc
    · exact h.calls id' call hcall
  notes := h.notes

theorem Owned.note (h : s.Owned) {n : Note} (hn : s.owns n.call.user n.conversationId = true) : (s.note n).Owned where
  lists := h.lists
  calls := h.calls
  notes n' hn' := by
    rcases List.mem_append.mp hn' with hn' | hn'
    · exact h.notes n' hn'
    · rw [List.mem_singleton.mp hn']
      exact hn

theorem Owned.expire (h : s.Owned) (user : String) (now : Int) : (s.expireConversations user now).Owned where
  lists v c hmem := by
    by_cases hv : v = user
    · subst hv
      rw [userConversations_expireConversations, Function.update_self] at hmem
      exact h.lists v c (List.mem_of_mem_filter hmem)
    · rw [userConversations_expireConversations, Function.update_of_ne hv] at hmem
      exact h.lists v c hmem
  calls := h.calls
  notes := h.notes

theorem Owned.create (h : s.Owned) (hfresh : s.objects c = none) (user : String) (now : Int) :
    (s.createConversation user c now).Owned where
  lists v c' hmem := by
    by_cases hv : v = user
    · subst hv
      rw [userConversations_createConversation, Function.update_self, List.mem_append, List.mem_singleton] at hmem
      rcases hmem with hmem | rfl
      · exact owns_create hfresh now (h.lists v c' (List.mem_of_mem_drop hmem))
      · exact owns_create_self s v c' now
    · rw [userConversations_createConversation, Function.update_of_ne hv] at hmem
      exact owns_create hfresh now (h.lists v c' hmem)
  calls id call hcall := owns_create hfresh now (h.calls id call hcall)
  notes n hn := owns_create hfresh now (h.notes n hn)

/-! ## What one user has -/

/-- The conversations, calls and notes of one user, as if there were no other. -/
def restrict (s : Engine) (u : String) : Engine where
  objects c := (s.objects c).filter fun conv => conv.userId = u
  tracked c := s.tracked c && s.owns u c
  userConversations v := if v = u then s.userConversations v else []
  calls := s.calls.filter fun entry => entry.1.user = u
  log := s.log.filter fun n => n.call.user = u

theorem objects_restrict (h : s.owns u c = true) : (s.restrict u).objects c = s.objects c := by
  obtain ⟨conv, hconv, huser⟩ := owns_iff.mp h
  simp [restrict, hconv, huser]

theorem objects_restrict_fresh (h : s.objects c = none) : (s.restrict u).objects c = none := by
  simp [restrict, h]

theorem call?_restrict (s : Engine) (u : String) (id : CallId) :
    (s.restrict u).call? id = if id.user = u then s.call? id else none := by
  unfold call? restrict
  dsimp only
  induction s.calls with
  | nil => simp
  | cons entry rest ih =>
    obtain ⟨id', call⟩ := entry
    by_cases heq : id = id'
    · subst heq
      by_cases huser : id.user = u
      · rw [List.filter_cons_of_pos (by simpa using huser)]
        simp [huser]
      · rw [List.filter_cons_of_neg (by simpa using huser), ih]
        simp [huser]
    · have hlookup : List.lookup id ((id', call) :: rest) = List.lookup id rest := by
        rw [List.lookup_cons, beq_eq_false_iff_ne.mpr heq]
      by_cases huser : id'.user = u
      · rw [List.filter_cons_of_pos (by simpa using huser), List.lookup_cons, beq_eq_false_iff_ne.mpr heq, hlookup]
        exact ih
      · rw [List.filter_cons_of_neg (by simpa using huser), hlookup]
        exact ih

theorem isStale_restrict (h : s.owns u c = true) (now : Int) : (s.restrict u).isStale now c = s.isStale now c := by
  rw [isStale, objects_restrict h, isStale]

theorem isLive_restrict (s : Engine) (u : String) (now : Int) (c : String) :
    (s.restrict u).isLive now c = (s.isLive now c && s.owns u c) := by
  unfold isLive conversation?
  cases hc : s.owns u c with
  | true =>
    rw [objects_restrict hc]
    simp [restrict, hc]
  | false => simp [restrict, hc]

/-! ### What a user does to it -/

theorem restrict_put (hconv : s.objects c = some old) (hu : old.userId = u) (huser : conv.userId = old.userId) :
    (s.put c conv).restrict u = (s.restrict u).put c conv := by
  refine Engine.ext (funext fun c' => ?_) (funext fun c' => ?_) rfl rfl rfl
  · by_cases hc : c' = c
    · simp [restrict, hc, huser, hu]
    · simp [restrict, hc]
  · change (s.tracked c' && (s.put c conv).owns u c') = (s.tracked c' && s.owns u c')
    rw [owns_put hconv huser]

theorem restrict_await (hid : id.user = u) (stage : Stage) :
    (s.await id c stage).restrict u = (s.restrict u).await id c stage := by
  simp [restrict, await, owns, hid]

theorem restrict_note (n : Note) (u : String) (hn : n.call.user = u) : (s.note n).restrict u = (s.restrict u).note n := by
  simp [restrict, note, owns, hn]

theorem userConversations_restrict (s : Engine) (u : String) :
    (s.restrict u).userConversations u = s.userConversations u := if_pos rfl

theorem restrict_expire (h : s.Owned) (u : String) (now : Int) :
    (s.expireConversations u now).restrict u = (s.restrict u).expireConversations u now := by
  refine Engine.ext rfl (funext fun c => ?_) (funext fun v => ?_) rfl rfl
  · rw [tracked_expireConversations, userConversations_restrict]
    change ((s.expireConversations u now).tracked c && s.owns u c) = (s.tracked c && s.owns u c && _)
    rw [tracked_expireConversations]
    cases hc : s.owns u c with
    | true => rw [isStale_restrict hc, Bool.and_true, Bool.and_true]
    | false => simp
  · rw [userConversations_expireConversations, userConversations_restrict]
    by_cases hv : v = u
    · subst hv
      rw [Function.update_self, userConversations_restrict, userConversations_expireConversations, Function.update_self]
      refine List.filter_congr fun c hmem => ?_
      have hc := h.lists v c hmem
      rw [isStale_restrict hc]
      simp [restrict, hc]
    · simp [restrict, hv]

theorem owns_create_of_ne (s : Engine) (user v : String) {c c' : String} (now : Int) (hc : c' ≠ c) :
    (s.createConversation user c now).owns v c' = s.owns v c' := by
  simp [owns, hc]

theorem restrict_create (s : Engine) (u c : String) (now : Int) :
    (s.createConversation u c now).restrict u = (s.restrict u).createConversation u c now := by
  refine Engine.ext (funext fun c' => ?_) (funext fun c' => ?_) (funext fun v => ?_) rfl rfl
  · by_cases hc : c' = c
    · simp [restrict, hc]
    · simp [restrict, hc]
  · change ((s.createConversation u c now).tracked c' && (s.createConversation u c now).owns u c') = _
    rw [tracked_createConversation, tracked_createConversation, userConversations_restrict]
    by_cases hc : c' = c
    · subst hc
      rw [if_pos rfl, if_pos rfl, owns_create_self, Bool.and_true]
    · rw [if_neg hc, if_neg hc, owns_create_of_ne s u u now hc]
      exact Bool.and_right_comm _ _ _
  · rw [userConversations_createConversation, userConversations_restrict]
    by_cases hv : v = u
    · subst hv
      rw [Function.update_self, userConversations_restrict, userConversations_createConversation, Function.update_self]
    · simp [restrict, hv]

/-! ### What another one does to it -/

theorem restrict_put_other (hconv : s.objects c = some old) (hu : old.userId ≠ u) (huser : conv.userId = old.userId) :
    (s.put c conv).restrict u = s.restrict u := by
  refine Engine.ext (funext fun c' => ?_) (funext fun c' => ?_) rfl rfl rfl
  · by_cases hc : c' = c
    · simp [restrict, hc, hconv, Option.filter, huser, hu]
    · simp [restrict, hc]
  · change (s.tracked c' && (s.put c conv).owns u c') = (s.tracked c' && s.owns u c')
    rw [owns_put hconv huser]

theorem restrict_await_other (hid : id.user ≠ u) (stage : Stage) : (s.await id c stage).restrict u = s.restrict u := by
  simp [restrict, await, owns, hid]

theorem restrict_note_other (n : Note) (u : String) (hn : n.call.user ≠ u) : (s.note n).restrict u = s.restrict u := by
  simp [restrict, note, owns, hn]

/-- A conversation in somebody else's list is not the user's. -/
theorem Owned.not_owns (h : s.Owned) (huser : user ≠ u) (hmem : c ∈ s.userConversations user) :
    s.owns u c = false := by
  obtain ⟨conv, hconv, rfl⟩ := owns_iff.mp (h.lists user c hmem)
  rw [owns_eq hconv]
  exact decide_eq_false huser

theorem restrict_expire_other (h : s.Owned) (huser : user ≠ u) (now : Int) :
    (s.expireConversations user now).restrict u = s.restrict u := by
  refine Engine.ext rfl (funext fun c => ?_) (funext fun v => ?_) rfl rfl
  · change ((s.expireConversations user now).tracked c && s.owns u c) = (s.tracked c && s.owns u c)
    rw [tracked_expireConversations]
    by_cases hmem : c ∈ s.userConversations user
    · rw [h.not_owns huser hmem, Bool.and_false, Bool.and_false]
    · simp [hmem]
  · by_cases hv : v = u
    · subst hv
      rw [userConversations_restrict, userConversations_restrict, userConversations_expireConversations,
        Function.update_of_ne huser.symm]
    · simp [restrict, hv]

theorem restrict_create_other (h : s.Owned) (hfresh : s.objects c = none) (huser : user ≠ u) (now : Int) :
    (s.createConversation user c now).restrict u = s.restrict u := by
  refine Engine.ext (funext fun c' => ?_) (funext fun c' => ?_) (funext fun v => ?_) rfl rfl
  · by_cases hc : c' = c
    · simp [restrict, hc, hfresh, Option.filter, huser]
    · simp [restrict, hc]
  · change ((s.createConversation user c now).tracked c' && (s.createConversation user c now).owns u c') =
      (s.tracked c' && s.owns u c')
    by_cases hc : c' = c
    · subst hc
      have hnot : s.owns u c' = false := by simp [owns, hfresh]
      rw [hnot, Bool.and_false]
      simp [owns, huser]
    · rw [owns_create_of_ne s user u now hc, tracked_createConversation, if_neg hc]
      cases hown : s.owns u c' with
      | false => rw [Bool.and_false, Bool.and_false]
      | true =>
        have hmem : c' ∉ s.userConversations user := by
          intro hmem
          rw [h.not_owns huser hmem] at hown
          cases hown
        have htaken (k : Nat) : c' ∉ (s.userConversations user).take k := fun hk => hmem (List.mem_of_mem_take hk)
        simp [htaken]
  · by_cases hv : v = u
    · subst hv
      rw [userConversations_restrict, userConversations_restrict, userConversations_createConversation,
        Function.update_of_ne huser.symm]
    · simp [restrict, hv]

/-! ## Who finds which conversation -/

/-- The id that is given, if any, names no live conversation of another user. -/
def asksOwn (s : Engine) (user : String) (conversationId : Option String) (now : Int) : Bool :=
  conversationId.all fun c => c = "" || !s.isLive now c || s.owns user c

variable {conversationId : Option String} {w : World} {message : String}

theorem isLive_of_expire {now now' : Int} (h : (s.expireConversations user now).isLive now' c = true) :
    s.isLive now' c = true := by
  unfold isLive conversation? at h ⊢
  rw [tracked_expireConversations, objects_expireConversations] at h
  cases htracked : s.tracked c with
  | true =>
    rw [if_pos rfl]
    split at h
    · exact h
    · cases h
  | false => simp [htracked] at h

theorem asksOwn_expire {now now' : Int} (h : s.asksOwn user conversationId now' = true) :
    (s.expireConversations user now).asksOwn user conversationId now' = true := by
  cases conversationId with
  | none => rfl
  | some c =>
    simp only [asksOwn, Option.all_some, Bool.or_eq_true, Bool.not_eq_true', decide_eq_true_eq] at h ⊢
    rcases h with (h | h) | h
    · exact .inl (.inl h)
    · refine .inl (.inr (Bool.eq_false_iff.mpr fun hlive => ?_))
      rw [isLive_of_expire hlive] at h
      cases h
    · exact .inr h

/-- A message goes to a conversation of its user. -/
theorem getOrCreate_owned (h : s.Owned) (hfresh : s.objects (w.uuid 0) = none)
    (hasks : s.asksOwn user conversationId w.now = true) :
    (s.getOrCreateConversation user conversationId w).1.Owned ∧
      (s.getOrCreateConversation user conversationId w).1.owns user
        (s.getOrCreateConversation user conversationId w).2 = true := by
  unfold getOrCreateConversation getActiveConversations
  split
  · next c hc =>
    obtain ⟨rfl, hgiven⟩ := Option.filter_eq_some_iff.mp hc
    simp only [Bool.and_eq_true, decide_eq_true_eq] at hgiven
    refine ⟨h, ?_⟩
    simpa [asksOwn, hgiven] using hasks
  · dsimp only
    split
    · next c hc =>
      exact ⟨h.expire user w.now, (h.expire user w.now).lists user c (List.mem_of_mem_filter (List.mem_of_getLast? hc))⟩
    · exact ⟨(h.expire user w.now).create hfresh user w.now, owns_create_self _ _ _ _⟩

theorem restrict_getOrCreate (h : s.Owned) (hasks : s.asksOwn u conversationId w.now = true) :
    (s.restrict u).getOrCreateConversation u conversationId w =
      ((s.getOrCreateConversation u conversationId w).1.restrict u, (s.getOrCreateConversation u conversationId w).2) := by
  have hgiven : (conversationId.filter fun c => c ≠ "" && (s.restrict u).isLive w.now c) =
      conversationId.filter fun c => c ≠ "" && s.isLive w.now c := by
    cases conversationId with
    | none => rfl
    | some c =>
      simp only [asksOwn, Option.all_some] at hasks
      simp only [Option.filter_some, isLive_restrict]
      by_cases hc : c = "" <;> cases hlive : s.isLive w.now c <;> simp_all
  have hactive : ((s.expireConversations u w.now).userConversations u).filter
        (((s.expireConversations u w.now).restrict u).isLive w.now) =
      ((s.expireConversations u w.now).userConversations u).filter ((s.expireConversations u w.now).isLive w.now) := by
    refine List.filter_congr fun c hmem => ?_
    rw [isLive_restrict, (h.expire u w.now).lists u c hmem, Bool.and_true]
  unfold getOrCreateConversation getActiveConversations
  dsimp only
  rw [hgiven, ← restrict_expire h, userConversations_restrict, hactive]
  split
  · rfl
  · split
    · rfl
    · rw [restrict_create]

theorem restrict_getOrCreate_other (conversationId : Option String) (u : String) (h : s.Owned) (hfresh : s.objects (w.uuid 0) = none) (huser : user ≠ u) :
    (s.getOrCreateConversation user conversationId w).1.restrict u = s.restrict u := by
  unfold getOrCreateConversation getActiveConversations
  split
  · rfl
  · dsimp only
    split
    · exact restrict_expire_other h huser w.now
    · rw [restrict_create_other (h.expire user w.now) hfresh huser, restrict_expire_other h huser]

/-! ## The calls of a user -/

theorem receive_owned (h : s.Owned) (hfresh : s.objects (w.uuid 0) = none)
    (hasks : s.asksOwn id.user conversationId w.now = true) : (s.receive id message conversationId w).Owned := by
  obtain ⟨howned, howns⟩ := getOrCreate_owned (h.expire id.user w.now) hfresh (asksOwn_expire hasks)
  unfold receive
  dsimp only
  split
  · exact howned
  · next conv hconv =>
    have htouch : (conv.touch w.now).userId = conv.userId := rfl
    refine ((howned.put hconv htouch).note ?_).await ?_ _
    · exact (owns_put hconv htouch _ _).trans howns
    · exact (owns_put hconv htouch _ _).trans howns

theorem restrict_receive (h : s.Owned) (hfresh : s.objects (w.uuid 0) = none)
    (hasks : s.asksOwn id.user conversationId w.now = true) :
    (s.receive id message conversationId w).restrict id.user =
      (s.restrict id.user).receive id message conversationId w := by
  obtain ⟨-, howns⟩ := getOrCreate_owned (h.expire id.user w.now) hfresh (asksOwn_expire hasks)
  obtain ⟨conv, hconv, huser⟩ := owns_iff.mp howns
  unfold receive
  rw [← restrict_expire h, restrict_getOrCreate (h.expire id.user w.now) (asksOwn_expire hasks)]
  dsimp only
  rw [objects_restrict howns, hconv]
  dsimp only
  have htouch : (conv.touch w.now).userId = conv.userId := rfl
  rw [restrict_await rfl, restrict_note _ id.user rfl, restrict_put hconv huser htouch]

theorem restrict_receive_other (h : s.Owned) (hfresh : s.objects (w.uuid 0) = none)
    (hasks : s.asksOwn id.user conversationId w.now = true) (hid : id.user ≠ u) :
    (s.receive id message conversationId w).restrict u = s.restrict u := by
  obtain ⟨-, howns⟩ := getOrCreate_owned (h.expire id.user w.now) hfresh (asksOwn_expire hasks)
  obtain ⟨conv, hconv, huser⟩ := owns_iff.mp howns
  have hget := restrict_getOrCreate_other conversationId u (h.expire id.user w.now) hfresh hid
  unfold receive
  dsimp only
  rw [hconv]
  dsimp only
  have htouch : (conv.touch w.now).userId = conv.userId := rfl
  rw [restrict_await_other hid, restrict_note_other (.received id _ conv.phase message) u hid,
    restrict_put_other hconv (by rwa [huser]) htouch, hget, restrict_expire_other h hid]

section

variable {cfg : Config} {now : Int}

theorem start_owned (cfg : Config) (user message : String) (now : Int) (h : s.Owned) (hfresh : s.objects c = none) :
    (s.startConversation cfg user c message now).1.Owned ∧
      (s.startConversation cfg user c message now).1.owns user c = true := by
  have hcreated : (s.createConversation user c now).objects c = some { userId := user, updatedAt := now } := by simp
  have huser : (BrainConversation.handleIntake cfg.route { userId := user, updatedAt := now } message).1.userId = user :=
    BrainConversation.handleIntake_userId _ _
  refine ⟨(h.create hfresh user now).put hcreated huser, ?_⟩
  exact (owns_put hcreated huser user c).trans (owns_create_self s user c now)

theorem start_owns (hfresh : s.objects c = none) {v c' : String} (h : s.owns v c' = true) :
    (s.startConversation cfg user c message now).1.owns v c' = true := by
  have hcreated : (s.createConversation user c now).objects c = some { userId := user, updatedAt := now } := by simp
  have huser : (BrainConversation.handleIntake cfg.route { userId := user, updatedAt := now } message).1.userId = user :=
    BrainConversation.handleIntake_userId _ _
  exact (owns_put hcreated huser v c').trans (owns_create hfresh now h)

theorem restrict_start : (s.startConversation cfg u c message now).1.restrict u =
    ((s.restrict u).startConversation cfg u c message now).1 := by
  have hcreated : (s.createConversation u c now).objects c = some { userId := u, updatedAt := now } := by simp
  have huser : (BrainConversation.handleIntake cfg.route { userId := u, updatedAt := now } message).1.userId = u :=
    BrainConversation.handleIntake_userId _ _
  unfold startConversation
  dsimp only
  rw [restrict_put hcreated rfl huser, restrict_create]

theorem restrict_start_other (h : s.Owned) (hfresh : s.objects c = none) (huser : user ≠ u) :
    (s.startConversation cfg user c message now).1.restrict u = s.restrict u := by
  have hcreated : (s.createConversation user c now).objects c = some { userId := user, updatedAt := now } := by simp
  have huser' : (BrainConversation.handleIntake cfg.route { userId := user, updatedAt := now } message).1.userId = user :=
    BrainConversation.handleIntake_userId _ _
  unfold startConversation
  dsimp only
  rw [restrict_put_other hcreated huser huser', restrict_create_other h hfresh huser]

/-- A call has its own conversation in hand. -/
structure Holds (s : Engine) (id : CallId) (c : String) (conv : BrainConversation) : Prop where
  owned : s.Owned
  object : s.objects c = some conv
  user : conv.userId = id.user

theorem Holds.owns (h : s.Holds id c conv) : s.owns id.user c = true := owns_iff.mpr ⟨conv, h.object, h.user⟩

variable {conv' : BrainConversation} {stage : Stage}

theorem Holds.put (h : s.Holds id c conv) (huser : conv'.userId = conv.userId) : (s.put c conv').Holds id c conv' where
  owned := h.owned.put h.object huser
  object := s.objects_put_self c conv'
  user := huser.trans h.user

theorem Holds.note (h : s.Holds id c conv) {n : Note} (hcall : n.call = id) (hc : n.conversationId = c) :
    (s.note n).Holds id c conv where
  owned := h.owned.note (by rw [hcall, hc]; exact h.owns)
  object := h.object
  user := h.user

theorem Holds.await (h : s.Holds id c conv) (stage : Stage) : (s.await id c stage).Owned := h.owned.await h.owns stage

theorem Holds.other (h : s.Holds id c conv) (hid : id.user ≠ u) : conv.userId ≠ u := by
  rw [h.user]
  exact hid

theorem next_owned {d : Dispatch} (h : s.Holds id c conv) : (s.nextStep id c conv d w).Owned := by
  unfold nextStep
  split
  · exact h.await _
  · exact (h.put (by rfl)).await _

theorem restrict_next {d : Dispatch} (h : s.Holds id c conv) :
    (s.nextStep id c conv d w).restrict id.user = (s.restrict id.user).nextStep id c conv d w := by
  unfold nextStep
  split
  · exact restrict_await rfl _
  · rw [restrict_await rfl, restrict_put h.object h.user]
    rfl

theorem restrict_next_other {d : Dispatch} (h : s.Holds id c conv) (hid : id.user ≠ u) :
    (s.nextStep id c conv d w).restrict u = s.restrict u := by
  unfold nextStep
  split
  · exact restrict_await_other hid _
  · rw [restrict_await_other hid, restrict_put_other h.object (h.other hid)]
    rfl

theorem dispatch_owned (h : s.Holds id c conv) : (s.dispatchTasks cfg id c conv w).Owned := by
  unfold dispatchTasks
  split
  · exact (h.put (by rfl)).await _
  · next plan _ =>
    have hnote : (s.note (.dispatched id c plan)).Holds id c conv := h.note rfl rfl
    dsimp only
    split
    · exact hnote.await _
    · exact (hnote.put (by rfl)).await _

theorem restrict_dispatch (h : s.Holds id c conv) :
    (s.dispatchTasks cfg id c conv w).restrict id.user = (s.restrict id.user).dispatchTasks cfg id c conv w := by
  unfold dispatchTasks
  split
  · rw [restrict_await rfl, restrict_put h.object h.user]
    rfl
  · next plan _ =>
    have hnote : (s.note (.dispatched id c plan)).Holds id c conv := h.note rfl rfl
    dsimp only
    split
    · rw [restrict_await rfl, restrict_note _ id.user rfl]
    · rw [restrict_await rfl, restrict_put hnote.object hnote.user, restrict_note _ id.user rfl]
      rfl

theorem restrict_dispatch_other (h : s.Holds id c conv) (hid : id.user ≠ u) :
    (s.dispatchTasks cfg id c conv w).restrict u = s.restrict u := by
  unfold dispatchTasks
  split
  · rw [restrict_await_other hid, restrict_put_other h.object (h.other hid)]
    rfl
  · next plan _ =>
    have hnote : (s.note (.dispatched id c plan)).Holds id c conv := h.note rfl rfl
    dsimp only
    split
    · rw [restrict_await_other hid, restrict_note_other (.dispatched id c plan) u hid]
    · rw [restrict_await_other hid, restrict_put_other hnote.object (hnote.other hid),
        restrict_note_other (.dispatched id c plan) u hid]
      rfl

theorem fresh_put (hfresh : s.objects (w.uuid 0) = none) (hconv : s.objects c = some conv) (conv' : BrainConversation) :
    (s.put c conv').objects (w.uuid 0) = none := by
  rw [objects_put, if_neg, hfresh]
  rintro heq
  rw [heq, hconv] at hfresh
  cases hfresh

theorem route_owned (h : s.Holds id c conv) (hfresh : s.objects (w.uuid 0) = none) :
    (s.routeMessage cfg id c conv message w).Owned := by
  have hnote : (s.note (.routed id c conv.phase message)).Holds id c conv := h.note rfl rfl
  rcases hhandle : conv.handle cfg.route message with _ | ⟨conv', _ | handled⟩
  · simp only [routeMessage, hhandle]
    obtain ⟨howned, howns⟩ := start_owned cfg id.user message w.now hnote.owned hfresh
    exact howned.await howns _
  · have hput := hnote.put (BrainConversation.handle_userId hhandle)
    have hfresh' := fresh_put (s := s.note (.routed id c conv.phase message)) hfresh h.object conv'
    simp only [routeMessage, hhandle]
    obtain ⟨howned, -⟩ := start_owned cfg conv'.userId message w.now hput.owned hfresh'
    exact howned.await (start_owns hfresh' hput.owns) _
  · simp only [routeMessage, hhandle]
    exact (hnote.put (BrainConversation.handle_userId hhandle)).await _

theorem restrict_route (h : s.Holds id c conv) :
    (s.routeMessage cfg id c conv message w).restrict id.user =
      (s.restrict id.user).routeMessage cfg id c conv message w := by
  have hnote : (s.note (.routed id c conv.phase message)).Holds id c conv := h.note rfl rfl
  rcases hhandle : conv.handle cfg.route message with _ | ⟨conv', _ | handled⟩
  · simp only [routeMessage, hhandle]
    rw [restrict_await rfl, restrict_start, restrict_note _ id.user rfl]
    rfl
  · have huser := BrainConversation.handle_userId hhandle
    simp only [routeMessage, hhandle]
    rw [huser, h.user, restrict_await rfl, restrict_start, restrict_put hnote.object hnote.user huser,
      restrict_note _ id.user rfl]
    rfl
  · simp only [routeMessage, hhandle]
    rw [restrict_await rfl, restrict_put hnote.object hnote.user (BrainConversation.handle_userId hhandle),
      restrict_note _ id.user rfl]

theorem restrict_route_other (h : s.Holds id c conv) (hfresh : s.objects (w.uuid 0) = none) (hid : id.user ≠ u) :
    (s.routeMessage cfg id c conv message w).restrict u = s.restrict u := by
  have hnote : (s.note (.routed id c conv.phase message)).Holds id c conv := h.note rfl rfl
  have hnoted := restrict_note_other (s := s) (.routed id c conv.phase message) u hid
  rcases hhandle : conv.handle cfg.route message with _ | ⟨conv', _ | handled⟩
  · simp only [routeMessage, hhandle]
    rw [restrict_await_other hid, restrict_start_other hnote.owned hfresh hid, hnoted]
  · have huser := BrainConversation.handle_userId hhandle
    have hput := hnote.put huser
    have hfresh' := fresh_put (s := s.note (.routed id c conv.phase message)) hfresh h.object conv'
    simp only [routeMessage, hhandle]
    rw [restrict_await_other hid, restrict_start_other hput.owned hfresh' (hput.other hid),
      restrict_put_other hnote.object (hnote.other hid) huser, hnoted]
  · simp only [routeMessage, hhandle]
    rw [restrict_await_other hid,
      restrict_put_other hnote.object (hnote.other hid) (BrainConversation.handle_userId hhandle), hnoted]

theorem resume_owned (h : s.Holds id c conv) (hfresh : s.objects (w.uuid 0) = none) (stage : Stage) :
    (s.resume cfg id c conv w stage).Owned := by
  cases stage with
  | persisting message => exact route_owned h hfresh
  | savingApproval | persistingAgain => exact h.await _
  | updatingApproval => exact dispatch_owned h
  | gatheringContext | runningTask => exact next_owned h
  | addingTask d task => exact (h.note (n := .ran id c _ task) rfl rfl).await _
  | returned => exact h.owned

theorem restrict_resume (h : s.Holds id c conv) (stage : Stage) :
    (s.resume cfg id c conv w stage).restrict id.user = (s.restrict id.user).resume cfg id c conv w stage := by
  cases stage with
  | persisting message => exact restrict_route h
  | savingApproval | persistingAgain => exact restrict_await rfl _
  | updatingApproval => exact restrict_dispatch h
  | gatheringContext | runningTask => exact restrict_next h
  | addingTask d task =>
    simp only [resume]
    rw [restrict_await rfl, restrict_note _ id.user rfl]
  | returned => rfl

theorem restrict_resume_other (h : s.Holds id c conv) (hfresh : s.objects (w.uuid 0) = none) (hid : id.user ≠ u)
    (stage : Stage) : (s.resume cfg id c conv w stage).restrict u = s.restrict u := by
  cases stage with
  | persisting message => exact restrict_route_other h hfresh hid
  | savingApproval | persistingAgain => exact restrict_await_other hid _
  | updatingApproval => exact restrict_dispatch_other h hid
  | gatheringContext | runningTask => exact restrict_next_other h hid
  | addingTask d task =>
    simp only [resume]
    rw [restrict_await_other hid, restrict_note_other (.ran id c d.results.length task) u hid]
  | returned => rfl

end

/-! ## Completions -/

section

variable {text : Value → String} {taskId : String} {result : Dict Value} {now : Int}

theorem complete_owned (h : s.Owned) : (s.completeTask text c taskId result now).1.Owned := by
  unfold completeTask
  split
  · exact h
  · next conv hconv =>
    dsimp only
    split
    · exact h.put (objects_of_conversation? hconv) rfl
    · exact h.put (objects_of_conversation? hconv) rfl

theorem restrict_complete (hc : s.owns u c = true) :
    (s.completeTask text c taskId result now).1.restrict u =
      ((s.restrict u).completeTask text c taskId result now).1 := by
  have hsame : (s.restrict u).conversation? c = s.conversation? c := by
    simp only [conversation?, objects_restrict hc]
    simp [restrict, hc]
  unfold completeTask
  rw [hsame]
  split
  · rfl
  · next conv hconv =>
    have hobject := objects_of_conversation? hconv
    have hu : conv.userId = u := by simpa [owns_eq hobject] using hc
    dsimp only
    split
    · exact restrict_put hobject hu rfl
    · exact restrict_put hobject hu rfl

theorem restrict_complete_other (hc : s.owns u c = false) :
    (s.completeTask text c taskId result now).1.restrict u = s.restrict u := by
  unfold completeTask
  split
  · rfl
  · next conv hconv =>
    have hobject := objects_of_conversation? hconv
    have hu : conv.userId ≠ u := by simpa [owns_eq hobject] using hc
    dsimp only
    split
    · exact restrict_put_other hobject hu rfl
    · exact restrict_put_other hobject hu rfl

end

/-! ## One step -/

/-- Whose event it is. A completion is the owner's. -/
def concerns (s : Engine) (u : String) : Event → Bool
  | .receive id .. => id.user = u
  | .resume id _ => id.user = u
  | .complete c .. => s.owns u c

/-- A message asks for nothing of another user. -/
def isolated (s : Engine) : Event → Bool
  | .receive id _ conversationId killSwitch w => killSwitch || s.asksOwn id.user conversationId w.now
  | .resume .. | .complete .. => true

/-- `uuid4` gives an id that it never gave before. -/
def drawsNew (s : Engine) : Event → Bool
  | .receive _ _ _ _ w => (s.objects (w.uuid 0)).isNone
  | .resume _ w => (s.objects (w.uuid 0)).isNone
  | .complete .. => true

variable {cfg : Config} {e : Event}

theorem Owned.holds (h : s.Owned) {stage : Stage} (hcall : s.call? id = some ⟨c, stage⟩)
    (hconv : s.objects c = some conv) : s.Holds id c conv :=
  ⟨h, hconv, by simpa [owns_eq hconv] using h.calls id _ hcall⟩

theorem owned_step (h : s.Owned) (hisolated : s.isolated e = true) : (step cfg s e).Owned := by
  have hstep := step_spec cfg s e
  generalize step cfg s e = s' at hstep
  cases hstep with
  | nothing => exact h
  | received id message conversationId w hid hfresh => exact receive_owned h hfresh hisolated
  | resumed id w c stage conv hcall hconv hfresh => exact resume_owned (h.holds hcall hconv) hfresh stage
  | completed => exact complete_owned h

/-- What one user does, done where there is no other. -/
theorem restrict_step (h : s.Owned) (hisolated : s.isolated e = true) (hnew : s.drawsNew e = true)
    (hmine : s.concerns u e = true) : (step cfg s e).restrict u = step cfg (s.restrict u) e := by
  cases e with
  | receive id message conversationId killSwitch w =>
    obtain rfl : id.user = u := by simpa [concerns] using hmine
    have hfresh : s.objects (w.uuid 0) = none := by simpa [drawsNew] using hnew
    rw [step, step, call?_restrict, if_pos rfl, hfresh, objects_restrict_fresh hfresh]
    split
    · rfl
    · next hnot =>
      cases killSwitch with
      | true => exact absurd (.inl rfl) hnot
      | false => exact restrict_receive h hfresh hisolated
  | resume id w =>
    obtain rfl : id.user = u := by simpa [concerns] using hmine
    have hfresh : s.objects (w.uuid 0) = none := by simpa [drawsNew] using hnew
    rw [step, step, call?_restrict, if_pos rfl]
    cases hcall : s.call? id with
    | none => rfl
    | some call =>
      obtain ⟨conv, hconv, -⟩ := owns_iff.mp (h.calls id call hcall)
      dsimp only
      rw [objects_restrict (h.calls id call hcall), hconv, hfresh, objects_restrict_fresh hfresh]
      exact restrict_resume (h.holds hcall hconv) call.stage
  | complete c taskId result now => exact restrict_complete hmine

theorem restrict_step_other (h : s.Owned) (hisolated : s.isolated e = true) (hother : s.concerns u e = false) :
    (step cfg s e).restrict u = s.restrict u := by
  have hstep := step_spec cfg s e
  generalize step cfg s e = s' at hstep
  cases hstep with
  | nothing => rfl
  | received id message conversationId w hid hfresh =>
    exact restrict_receive_other h hfresh hisolated (by simpa [concerns] using hother)
  | resumed id w c stage conv hcall hconv hfresh =>
    exact restrict_resume_other (h.holds hcall hconv) hfresh (by simpa [concerns] using hother) stage
  | completed => exact restrict_complete_other hother

/-! ## The start -/

variable {now : Int} {row : Row}

theorem load_owns_self (s : Engine) (row : Row) (now : Int) :
    (s.load now row).owns row.userId row.conversationId = true := by
  simp [owns, load, Row.conversation]

theorem load_owns (hfresh : s.objects row.conversationId = none) (h : s.owns user c = true) :
    (s.load now row).owns user c = true := by
  obtain ⟨conv, hconv, huser⟩ := owns_iff.mp h
  refine owns_iff.mpr ⟨conv, ?_, huser⟩
  have hne : c ≠ row.conversationId := by
    rintro rfl
    rw [hfresh] at hconv
    cases hconv
  simp [load, hne, hconv]

theorem Owned.load (h : s.Owned) (hfresh : s.objects row.conversationId = none) : (s.load now row).Owned where
  lists v c hmem := by
    by_cases hv : v = row.userId
    · subst hv
      simp only [Engine.load, Function.update_self, List.mem_append, List.mem_singleton] at hmem
      rcases hmem with hmem | rfl
      · exact load_owns hfresh (h.lists _ c hmem)
      · exact load_owns_self s row now
    · simp only [Engine.load, Function.update_of_ne hv] at hmem
      exact load_owns hfresh (h.lists v c hmem)
  calls id call hcall := load_owns hfresh (h.calls id call hcall)
  notes n hn := load_owns hfresh (h.notes n hn)

theorem restrict_load (s : Engine) (hrow : row.userId = u) :
    (s.load now row).restrict u = (s.restrict u).load now row := by
  subst hrow
  refine Engine.ext (funext fun c => ?_) (funext fun c => ?_) (funext fun v => ?_) rfl rfl
  · by_cases hc : c = row.conversationId <;> simp [restrict, load, hc, Row.conversation]
  · by_cases hc : c = row.conversationId <;> simp [restrict, load, owns, hc, Row.conversation]
  · by_cases hv : v = row.userId <;> simp [restrict, load, hv]

theorem restrict_load_other (hfresh : s.objects row.conversationId = none) (hrow : row.userId ≠ u) :
    (s.load now row).restrict u = s.restrict u := by
  refine Engine.ext (funext fun c => ?_) (funext fun c => ?_) (funext fun v => ?_) rfl rfl
  · by_cases hc : c = row.conversationId
    · simp [restrict, load, hc, hfresh, Row.conversation, Option.filter, hrow]
    · simp [restrict, load, hc]
  · by_cases hc : c = row.conversationId
    · simp [restrict, load, owns, hc, hfresh, Row.conversation, hrow]
    · simp [restrict, load, owns, hc]
  · by_cases hv : v = u
    · subst hv
      simp [restrict, load, hrow.symm]
    · simp [restrict, hv]

/-- Every conversation comes back to its user, and a user gets back the same whatever rows
the others have. -/
theorem load_rows (now : Int) (u : String) (rows : List Row) (hnodup : (rows.map (·.conversationId)).Nodup) (h : s.Owned)
    (hfresh : ∀ row ∈ rows, s.objects row.conversationId = none) :
    (rows.foldl (load now) s).Owned ∧
      (rows.foldl (load now) s).restrict u = (rows.filter (·.userId = u)).foldl (load now) (s.restrict u) := by
  induction rows generalizing s with
  | nil => exact ⟨h, rfl⟩
  | cons row rows ih =>
    rw [List.map_cons, List.nodup_cons] at hnodup
    rw [List.forall_mem_cons] at hfresh
    have hrest : ∀ row' ∈ rows, (s.load now row).objects row'.conversationId = none := by
      intro row' hmem
      have hne : row'.conversationId ≠ row.conversationId := by
        intro heq
        exact hnodup.1 (heq ▸ List.mem_map_of_mem hmem)
      simpa [load, hne] using hfresh.2 row' hmem
    obtain ⟨howned, hrestrict⟩ := ih hnodup.2 (h.load hfresh.1) hrest
    refine ⟨howned, hrestrict.trans ?_⟩
    by_cases hrow : row.userId = u
    · rw [restrict_load s hrow, List.filter_cons_of_pos (by simpa using hrow), List.foldl_cons]
    · rw [restrict_load_other hfresh.1 hrow, List.filter_cons_of_neg (by simpa using hrow)]

theorem loadActiveConversations_spec (table : Table) (now : Int) (u : String) :
    (loadActiveConversations table now).Owned ∧
      (loadActiveConversations table now).restrict u =
        ((table.rows.filter (·.userId = u)).filter Row.isActive).foldl (load now) {} := by
  have hempty : ({} : Engine).Owned := ⟨by simp, by simp [call?], by simp⟩
  have hnone : ({} : Engine).restrict u = {} := by
    refine Engine.ext rfl rfl (funext fun v => ?_) rfl rfl
    simp [restrict]
  obtain ⟨howned, hrestrict⟩ := load_rows now u (table.rows.filter Row.isActive)
    (table.nodup.sublist (List.filter_sublist.map _)) hempty fun _ _ => rfl
  refine ⟨howned, hrestrict.trans ?_⟩
  rw [hnone, List.filter_filter, List.filter_filter]
  exact congrArg (List.foldl (load now) {}) (List.filter_congr fun row _ => Bool.and_comm _ _)

end Engine

/-! ## Runs -/

/-- No message of the run asks for a live conversation of another user, and all ids are new. -/
def AsksOwn (cfg : Config) (table : Table) (now : Int) (events : List Event) : Prop :=
  Lib.Admitted (step cfg) (fun s e => s.isolated e = true ∧ s.drawsNew e = true) (.loadActiveConversations table now)
    events

instance (cfg : Config) (table : Table) (now : Int) (events : List Event) :
    Decidable (AsksOwn cfg table now events) :=
  inferInstanceAs (Decidable (Lib.Admitted _ _ _ _))

def eventsOf (u : String) (cfg : Config) (table : Table) (now : Int) (events : List Event) : List Event :=
  Lib.seen (step cfg) (fun s e => s.concerns u e) (.loadActiveConversations table now) events

/-- Every call acts on conversations of its own user, the events of the others leave a user's
part as it is, and two runs that agree on the user's rows and events give the user the same
conversations, calls and replies. -/
theorem conversations_isolated (cfg : Config) (u : String) (now : Int) (table table' : Table)
    (events events' : List Event) (h : AsksOwn cfg table now events) (h' : AsksOwn cfg table' now events')
    (hrows : table.rows.filter (·.userId = u) = table'.rows.filter (·.userId = u))
    (hevents : eventsOf u cfg table now events = eventsOf u cfg table' now events') :
    (∀ n ∈ (history cfg table now events).log,
        (history cfg table now events).owns n.call.user n.conversationId = true) ∧
      (∀ before e after, events = before ++ e :: after → (history cfg table now before).concerns u e = false →
        (history cfg table now (before ++ [e])).restrict u = (history cfg table now before).restrict u) ∧
      (history cfg table now events).restrict u = (history cfg table' now events').restrict u ∧
      ∀ id, id.user = u → (history cfg table now events).call? id = (history cfg table' now events').call? id := by
  obtain ⟨howned, hstart⟩ := Engine.loadActiveConversations_spec table now u
  obtain ⟨howned', hstart'⟩ := Engine.loadActiveConversations_spec table' now u
  have hstep (s : Engine) (e : Event) (hs : s.Owned) (hok : s.isolated e = true ∧ s.drawsNew e = true) :
      (step cfg s e).Owned := Engine.owned_step hs hok.1
  have hsame : (history cfg table now events).restrict u = (history cfg table' now events').restrict u :=
    Lib.part_run_congr (·.restrict u) hstep (fun s e hs hok hmine => Engine.restrict_step hs hok.1 hok.2 hmine)
      (fun s e hs hok hother => Engine.restrict_step_other hs hok.1 hother) howned howned' h h'
      (by rw [hstart, hstart', hrows]) hevents
  refine ⟨fun n hn => (h.invariant Engine.Owned howned hstep).notes n hn, fun before e after hsplit hother => ?_, hsame,
    fun id hid => ?_⟩
  · have hbefore := h
    rw [AsksOwn, hsplit, Lib.admitted_append] at hbefore
    have hcurrent : (history cfg table now before).Owned := hbefore.1.invariant Engine.Owned howned hstep
    rw [history_append]
    exact Engine.restrict_step_other hcurrent hbefore.2.1.1 hother
  · have hcalls := congrArg (·.call? id) hsame
    simpa [Engine.call?_restrict, hid] using hcalls

def henry : List Event :=
  [.receive ⟨"henry", 1⟩ "Fix the API bug" none false (world "a"), .resume ⟨"henry", 1⟩ (world "b")]

/-- The message names the conversation of henry, if he has one. -/
def peter : List Event :=
  [.receive ⟨"peter", 1⟩ "igen" (some "a0") false (world "p"), .resume ⟨"peter", 1⟩ (world "q"),
    .resume ⟨"peter", 1⟩ (world "r")]

/-- Peter approves the plan of henry, and hears of it or of a plan of his own as henry has one or not. -/
theorem others_plan_dispatched :
    (history (coreConfig false) emptyTable 0 (henry ++ peter)).owns "henry" "a0" = true ∧
      (dispatchesOf "a0" (history (coreConfig false) emptyTable 0 (henry ++ peter)).log).map (·.1) =
        [⟨"peter", 1⟩] ∧
      ((history (coreConfig false) emptyTable 0 (henry ++ peter)).call? ⟨"peter", 1⟩).map (·.conversationId) =
        some "a0" ∧
      ((history (coreConfig false) emptyTable 0 peter).call? ⟨"peter", 1⟩).map (·.conversationId) = some "p0" := by
  decide +kernel

/-- The message names no conversation. -/
def peterAlone : List Event :=
  [.receive ⟨"peter", 1⟩ "igen" none false (world "p"), .resume ⟨"peter", 1⟩ (world "q"),
    .resume ⟨"peter", 1⟩ (world "r")]

theorem conversations_isolated_peter :
    (history (coreConfig false) emptyTable 0 (henry ++ peterAlone)).restrict "peter" =
      (history (coreConfig false) emptyTable 0 peterAlone).restrict "peter" :=
  (conversations_isolated (coreConfig false) "peter" 0 emptyTable emptyTable (henry ++ peterAlone) peterAlone
    (by decide +kernel) (by decide +kernel) rfl (by simp [eventsOf, Lib.seen, henry, peterAlone, Engine.concerns])).2.2.1

end Occp.BrainFlow
