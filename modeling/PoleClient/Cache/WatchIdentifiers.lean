import PoleClient.Cache.WatchDelivery
import PoleClient.Core.Joined

/-! # Identifiers and keys of watchers

A watcher is lost only when the counter of its object comes round, and shares a
key with others only when a name has the separator. Without either, the events
of instances and files are delivered.
-/

namespace PoleClient.Cache

open Lib

variable {ρ : Type}

/-! ## Identifiers -/

def countOwner (api : ApiId) (responses : List WatchResponse) : Nat :=
  responses.countP fun response => response.owner = api

/-- Identifiers count the watches of each object. -/
structure Numbered (s : WatchState ρ) : Prop where
  next : ∀ api, (s.apis api).listener.watcherId = .ofNat (countOwner api s.responses)
  given : ∀ (number : Nat) (response : WatchResponse), s.responses[number]? = some response →
    response.watchId = .ofNat (countOwner response.owner (s.responses.take number))

theorem numbered_new : Numbered (.new : WatchState ρ) :=
  ⟨fun _ => rfl, nofun⟩

theorem numbered_watch {s : WatchState ρ} (inv : Numbered s) (api : ApiId) (req : WatchRequest) :
    Numbered (s.watch api req) := by
  constructor
  · intro other
    rw [s.watch_apis, s.watch_responses, countOwner, List.countP_append]
    by_cases hother : other = api
    · rw [if_pos hother, hother]
      show (s.apis api).listener.watcherId + 1 = _
      rw [inv.next api]
      simp [countOwner, UInt64.ofNat_add]
    · rw [if_neg hother, inv.next other]
      simp [countOwner, Ne.symm hother]
  · intro number response h
    rw [s.watch_responses] at h ⊢
    by_cases hlt : number < s.responses.length
    · rw [List.getElem?_append_left hlt] at h
      rw [List.take_append_of_le_length (Nat.le_of_lt hlt)]
      exact inv.given number response h
    · have hlength := (List.getElem?_eq_some_iff.mp h).1
      rw [List.length_append, List.length_singleton] at hlength
      obtain rfl : number = s.responses.length := by omega
      rw [List.getElem?_append_right (Nat.le_refl _), Nat.sub_self] at h
      cases h
      rw [List.take_left]
      exact inv.next api

theorem numbered_cancel {s : WatchState ρ} (inv : Numbered s) (number : Nat) :
    Numbered (s.cancelWatch number) := by
  have hresponses := (s.cancelWatch_frame number).2.2
  constructor
  · intro api
    rw [hresponses, ← inv.next api]
    cases hresponse : s.responses[number]? with
    | none =>
        unfold WatchState.cancelWatch
        rw [hresponse]
    | some response =>
        rw [(WatchState.cancelWatch_of_some hresponse api).1]
        split
        · unfold ResourceListener.cancelWatch
          split <;> rfl
        · rfl
  · rw [hresponses]
    exact inv.given

/-- Below `2 ^ 64` watches no identifier of an object is given twice. -/
theorem Numbered.eq_of_watchId {s : WatchState ρ} (inv : Numbered s)
    (few : s.responses.length ≤ 2 ^ 64) {number other : Nat} {first second : WatchResponse}
    (hfirst : s.responses[number]? = some first) (hsecond : s.responses[other]? = some second)
    (howner : first.owner = second.owner) (hid : first.watchId = second.watchId) :
    number = other := by
  have hlt : ∀ {number other : Nat} {first second : WatchResponse},
      s.responses[number]? = some first → s.responses[other]? = some second →
        first.owner = second.owner → number < other → first.watchId ≠ second.watchId := by
    intro number other first second hfirst hsecond howner hlt hid
    have hnumber := (List.getElem?_eq_some_iff.mp hfirst).1
    have hother := (List.getElem?_eq_some_iff.mp hsecond).1
    have hstep : countOwner second.owner (s.responses.take (number + 1)) =
        countOwner second.owner (s.responses.take number) + 1 := by
      rw [List.take_add_one, hfirst, countOwner, List.countP_append]
      simp [countOwner, howner]
    have hmono : countOwner second.owner (s.responses.take (number + 1)) ≤
        countOwner second.owner (s.responses.take other) :=
      (List.take_sublist_take_left (by omega)).countP_le
    have hbound : countOwner second.owner (s.responses.take other) ≤ other :=
      Nat.le_trans List.countP_le_length (List.length_take_le _ _)
    rw [inv.given number first hfirst, inv.given other second hsecond, howner] at hid
    have hnat := congrArg UInt64.toNat hid
    rw [UInt64.toNat_ofNat', UInt64.toNat_ofNat', Nat.mod_eq_of_lt (by omega),
      Nat.mod_eq_of_lt (by omega)] at hnat
    omega
  rcases Nat.lt_trichotomy number other with h | h | h
  · exact absurd hid (hlt hfirst hsecond howner h)
  · exact h
  · exact absurd hid.symm (hlt hsecond hfirst howner.symm h)

def AllHeld (s : WatchState ρ) (subs : Subscriptions) : Prop :=
  ∀ watcher ∈ subs.live, ∃ api id,
    (s.apis api).listener.entry watcher.req.getKey id = some watcher

theorem allHeld_watch {s : WatchState ρ} {subs : Subscriptions} (inv : Consistent s subs)
    (numbered : Numbered s) (held : AllHeld s subs) (number : Nat) (req : WatchRequest)
    (few : (s.watch ⟨req.kind, number⟩ req).responses.length ≤ 2 ^ 64) :
    AllHeld (s.watch ⟨req.kind, number⟩ req)
      (subs.step (.watch number req : WatchAction ρ)) := by
  intro watcher hwatcher
  rcases List.mem_append.mp hwatcher with hold | hnew
  · rcases held watcher hold with ⟨api, id, hentry⟩
    refine ⟨api, id, ?_⟩
    rw [s.watch_apis]
    by_cases hapi : api = ⟨req.kind, number⟩
    · subst hapi
      rw [if_pos rfl]
      simp only [ResourceListener.entry_watch]
      rw [if_neg, hentry]
      rintro ⟨-, hid⟩
      -- The new response would have the identifier of the old watcher's.
      have hgiven : (s.watch ⟨req.kind, number⟩ req).responses[watcher.number]? =
          some ⟨id, watcher.req.getKey, ⟨req.kind, number⟩⟩ := by
        have hlt := inv.fresh watcher hold
        rw [inv.count] at hlt
        rw [s.watch_responses, List.getElem?_append_left hlt]
        exact inv.given _ _ id watcher hentry
      have hlast : (s.watch ⟨req.kind, number⟩ req).responses[s.responses.length]? =
          some ⟨id, req.getKey, ⟨req.kind, number⟩⟩ := by
        rw [s.watch_responses, List.getElem?_append_right (Nat.le_refl _), Nat.sub_self, hid]
        rfl
      have hsame := (numbered_watch numbered _ req).eq_of_watchId few hgiven hlast rfl rfl
      have hfresh := inv.fresh watcher hold
      rw [inv.count] at hfresh
      omega
    · rw [if_neg hapi]
      exact hentry
  · rw [List.mem_singleton.mp hnew]
    refine ⟨⟨req.kind, number⟩, (s.apis ⟨req.kind, number⟩).listener.watcherId, ?_⟩
    rw [s.watch_apis, if_pos rfl]
    rw [inv.count, ResourceListener.entry_watch, if_pos ⟨rfl, rfl⟩]

theorem allHeld_cancel {s : WatchState ρ} {subs : Subscriptions} (inv : Consistent s subs)
    (numbered : Numbered s) (held : AllHeld s subs) (few : s.responses.length ≤ 2 ^ 64)
    (number : Nat) :
    AllHeld (s.cancelWatch number) (subs.step (.cancelWatch number : WatchAction ρ)) := by
  intro watcher hwatcher
  obtain ⟨hlive, hne⟩ := List.mem_filter.mp hwatcher
  rcases held watcher hlive with ⟨api, id, hentry⟩
  refine ⟨api, id, ?_⟩
  cases hresponse : s.responses[number]? with
  | none =>
      unfold WatchState.cancelWatch
      rw [hresponse]
      exact hentry
  | some response =>
      rw [(WatchState.cancelWatch_of_some hresponse api).1]
      split
      · rename_i howner
        rw [ResourceListener.entry_cancelWatch, if_neg, hentry]
        rintro ⟨-, hid⟩
        have hgiven := inv.given api _ id watcher hentry
        have hsame := numbered.eq_of_watchId few hgiven hresponse howner hid
        simp [hsame] at hne
      · exact hentry

theorem responses_grow (s : WatchState ρ) (actions : List (WatchAction ρ)) :
    s.responses.length ≤ (run WatchState.step s actions).responses.length := by
  induction actions generalizing s with
  | nil => exact Nat.le_refl _
  | cons action actions ih =>
      refine Nat.le_trans ?_ (ih (s.step action))
      cases action with
      | cache action => exact Nat.le_refl _
      | watch number req =>
          show s.responses.length ≤ (s.watch _ req).responses.length
          rw [s.watch_responses, List.length_append]
          omega
      | cancelWatch response =>
          exact Nat.le_of_eq (congrArg List.length (s.cancelWatch_frame response).2.2.symm)

/-- In a run with at most `2 ^ 64` watches every live watcher stays held. -/
theorem held_run (actions : List (WatchAction ρ)) {s : WatchState ρ} {subs : Subscriptions}
    (inv : Consistent s subs) (numbered : Numbered s) (held : AllHeld s subs)
    (few : (run WatchState.step s actions).responses.length ≤ 2 ^ 64) :
    ∀ watcher ∈ (run Subscriptions.step subs actions).live,
      Held (run WatchState.step s actions) watcher := by
  induction actions generalizing s subs with
  | nil =>
      intro watcher hwatcher
      rcases held watcher hwatcher with ⟨api, id, hentry⟩
      exact ⟨api, ResourceListener.mem_watchersOf_iff.mpr ⟨id, hentry⟩⟩
  | cons action actions ih =>
      have hnow : (s.step action).responses.length ≤ 2 ^ 64 :=
        Nat.le_trans (responses_grow (s.step action) actions) few
      have hinv := consistent_run [action] inv
      cases action with
      | cache action => exact ih hinv ⟨numbered.next, numbered.given⟩ held few
      | watch number req =>
          exact ih hinv (numbered_watch numbered _ req)
            (allHeld_watch inv numbered held number req hnow) few
      | cancelWatch response =>
          have hbefore : s.responses.length ≤ 2 ^ 64 :=
            Nat.le_trans (responses_grow s [.cancelWatch response]) hnow
          exact ih hinv (numbered_cancel numbered response)
            (allHeld_cancel inv numbered held hbefore response) few

/-! ## Names without the separator -/

def WatchRequest.names : WatchRequest → List String
  | .«instance» namespaceName service => [namespaceName, service]
  | .configFile namespaceName group file => [namespaceName, group, file]
  | .configGroup namespaceName group => [namespaceName, group]

def WatchRequest.Plain (req : WatchRequest) : Prop :=
  ∀ name ∈ req.names, '#' ∉ name.toList

theorem WatchRequest.getKey_eq_join (req : WatchRequest) :
    req.getKey = Text.join '#' req.names := by
  have hsep : String.singleton '#' = "#" := rfl
  cases req <;>
    simp [getKey, names, Text.join_cons_cons, Text.join_singleton, hsep, String.append_assoc]

theorem WatchRequest.eq_of_getKey {req other : WatchRequest} (hreq : req.Plain)
    (hother : other.Plain) (hkind : req.kind = other.kind) (hkey : req.getKey = other.getKey) :
    req = other := by
  have hne : ∀ req : WatchRequest, req.names ≠ [] := fun req => by cases req <;> exact nofun
  rw [getKey_eq_join, getKey_eq_join, Text.join_eq_join_iff (hne req) (hne other),
    Text.cut_of_plain hreq, Text.cut_of_plain hother] at hkey
  have hnames := (List.map_injective_iff.mpr fun _ _ h => String.toList_inj.mp h) hkey
  cases req <;> cases other <;> cases hkind <;> cases hnames <;> rfl

/-- With at most `2 ^ 64` watches and names without the separator, instances and files are
delivered. -/
theorem delivers_of_plain (actions : List (WatchAction ρ)) (event : RemoteData ρ)
    (few : (run WatchState.step .new actions : WatchState ρ).responses.length ≤ 2 ^ 64)
    (plain : ∀ watcher ∈ (run Subscriptions.step .none actions).live, watcher.req.Plain)
    (event_plain : ∀ req, event.eventKey.watchRequest = some req →
      req.kind ≠ .configGroup ∧ req.Plain) :
    Delivers (run WatchState.step .new actions) (run Subscriptions.step .none actions) event := by
  rw [delivers_iff (consistent_run actions consistent_new)]
  intro _ req hreq
  obtain ⟨hkind, hplain⟩ := event_plain req hreq
  rw [if_neg hkind]
  intro watcher hwatcher hwatcherKind hkey
  constructor
  · exact fun _ => WatchRequest.eq_of_getKey (plain watcher hwatcher) hplain hwatcherKind hkey
  · exact fun _ => held_run actions consistent_new numbered_new nofun few watcher hwatcher

end PoleClient.Cache
