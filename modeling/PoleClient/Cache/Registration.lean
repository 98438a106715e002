import Mathlib.Data.List.Perm.Basic
import PoleClient.Cache.Pipeline

/-! # One registration for an entry

A watch is submitted by the load that makes an entry, and by no other. However the
spawned tasks run, every entry of instances or rules has one registration, on its way
or with the connector, and there is none without an entry.
-/

namespace PoleClient.Cache

open Connector Lib

variable {ρ : Type}

/-! ## Entries and their texts -/

/-- The types whose entries are kept under a service. -/
def ofService : EventType → Bool
  | .«instance» | .governance _ => true
  | _ => false

def hasEntry (handler : MemoryResourceHandler ρ) (eventType : EventType) (sk : String) : Bool :=
  match eventType with
  | .«instance» => (handler.instances sk).isSome
  | .governance type => (handler.governance type sk).isSome
  | _ => false

def entryText (eventType : EventType) (sk : String) : String := eventType.toText ++ "#" ++ sk

theorem toText_injective {first second : EventType} (h : first.toText = second.toText) :
    first = second := by
  cases first with
  | governance type =>
      cases second with
      | governance other =>
          cases type <;> cases other <;> first | rfl | exact absurd h (by decide)
      | _ => cases type <;> exact absurd h (by decide)
  | _ =>
      cases second with
      | governance other => cases other <;> exact absurd h (by decide)
      | _ => first | rfl | exact absurd h (by decide)

theorem sep_not_mem_toText (eventType : EventType) : '#' ∉ eventType.toText.toList := by
  cases eventType with
  | governance type => cases type <;> decide
  | _ => decide

theorem type_of_text {first second : EventType} {rest other : String}
    (h : first.toText ++ "#" ++ rest = second.toText ++ "#" ++ other) :
    first = second ∧ rest = other := by
  have hname : ∀ (eventType : EventType) (rest : String),
      (eventType.toText ++ "#" ++ rest).toList.takeWhile (fun c => decide (c ≠ '#')) =
        eventType.toText.toList := by
    intro eventType rest
    have hclear : ∀ c ∈ eventType.toText.toList, decide (c ≠ '#') = true := by
      intro c hc
      exact decide_eq_true fun h => sep_not_mem_toText eventType (h ▸ hc)
    simp only [String.toList_append, List.append_assoc]
    rw [List.takeWhile_append_of_pos hclear]
    simp
  have hsame : first = second := by
    apply toText_injective
    apply String.toList_inj.mp
    rw [← hname first rest, h, hname]
  subst hsame
  exact ⟨rfl, (String.append_right_inj _).mp h⟩

theorem toText_of_entry {key : ResourceEventKey} {service : String}
    (kept : ofService key.eventType = true) (hservice : key.filter "service" = some service) :
    key.toText =
      .ok (entryText key.eventType (serviceKey key.namespaceName service)) := by
  have hfile : key.eventType ≠ .configFile := by
    intro h
    rw [h] at kept
    cases kept
  have hgroup : key.eventType ≠ .configGroup := by
    intro h
    rw [h] at kept
    cases kept
  rw [toText_of_service hfile hgroup hservice]
  simp only [entryText, serviceKey, String.append_assoc]

theorem key_of_text {key : ResourceEventKey} {eventType : EventType} {sk : String}
    (kept : ofService eventType = true) (h : key.toText = .ok (entryText eventType sk)) :
    key.eventType = eventType ∧ ∃ service, key.filter "service" = some service ∧
      serviceKey key.namespaceName service = sk := by
  obtain ⟨rest, hrest⟩ := PipelineState.toText_starts h
  rw [← String.append_assoc] at hrest
  obtain ⟨htype, -⟩ := type_of_text hrest
  refine ⟨htype.symm, ?_⟩
  subst htype
  cases hservice : key.filter "service" with
  | none =>
      unfold ResourceEventKey.toText at h
      rw [hservice] at h
      cases hcase : key.eventType <;> rw [hcase] at h kept <;>
        first
        | (cases kept; done)
        | cases h
  | some service =>
      rw [toText_of_entry kept hservice] at h
      exact ⟨service, rfl, (type_of_text (Except.ok.inj h)).2⟩

/-! ## Loads -/

/-- The load that asks for the text is the one that makes the entry, if there is none. -/
theorem submits_iff {key : ResourceEventKey} {eventType : EventType} {sk : String}
    (kept : ofService eventType = true) (h : key.toText = .ok (entryText eventType sk))
    (handler : MemoryResourceHandler ρ) :
    submitsWatch handler key = !hasEntry handler eventType sk ∧
      hasEntry (ensureEntry handler key) eventType sk = true := by
  obtain ⟨rfl, service, hservice, rfl⟩ := key_of_text kept h
  unfold submitsWatch hasEntry ensureEntry
  cases htype : key.eventType with
  | «instance» =>
      simp only [hservice, orInsert, setEntry, Function.update_self, Option.isSome_some, and_true]
      cases handler.instances (serviceKey key.namespaceName service) <;> rfl
  | governance type =>
      simp only [hservice, setRules_self, Option.isSome_some, and_true]
      cases handler.governance type (serviceKey key.namespaceName service) <;> rfl
  | _ =>
      rw [htype] at kept
      cases kept

theorem hasEntry_of_other {key : ResourceEventKey} {eventType : EventType} {sk : String}
    (h : key.toText ≠ .ok (entryText eventType sk)) (handler : MemoryResourceHandler ρ) :
    hasEntry (ensureEntry handler key) eventType sk = hasEntry handler eventType sk := by
  unfold ensureEntry
  cases htype : key.eventType with
  | «instance» =>
      cases hservice : key.filter "service" with
      | none => rfl
      | some service =>
          have htext := toText_of_entry (by rw [htype]; rfl) hservice
          rw [htype] at htext
          cases eventType with
          | «instance» =>
              have hne : sk ≠ serviceKey key.namespaceName service := by
                intro hsame
                rw [hsame] at h
                exact h htext
              simp only [hasEntry, orInsert, setEntry, Function.update_of_ne hne]
          | _ => rfl
  | governance type =>
      cases hservice : key.filter "service" with
      | none => rfl
      | some service =>
          have htext := toText_of_entry (by rw [htype]; rfl) hservice
          rw [htype] at htext
          cases eventType with
          | governance other =>
              have hne : ¬ (other = type ∧ sk = serviceKey key.namespaceName service) := by
                intro hsame
                rw [hsame.1, hsame.2] at h
                exact h htext
              simp only [hasEntry, setRules_of_ne _ _ hne]
          | _ => rfl
  | service => cases eventType <;> rfl
  | configFile =>
      simp only
      split <;> cases eventType <;> rfl
  | configGroup =>
      simp only
      split <;> cases eventType <;> rfl
  | _ => cases eventType <;> rfl

/-- An event is for entries that are there. -/
theorem hasEntry_onSpecEvent (handler : MemoryResourceHandler ρ) (event : RemoteData ρ)
    (eventType : EventType) (sk : String) :
    hasEntry (onSpecEvent handler event).1 eventType sk = hasEntry handler eventType sk := by
  unfold onSpecEvent
  split
  · rfl
  · rfl
  · rename_i after value h
    rcases applyEvent_cases h with
      ⟨htype, -⟩ | ⟨type, remoteVal, svc, htype, hvalue, hservice, -⟩ | ⟨-, heq⟩ | ⟨-, heq⟩ | heq
    · unfold applyEvent at h
      simp only [htype] at h
      rcases applyDiscover_cases event (applyInstances handler) with
        hpanicked | ⟨remoteVal, svc, -, -, happlied⟩
      · rw [hpanicked] at h
        cases h
      · rw [happlied] at h
        unfold applyInstances at h
        cases hitem : handler.instances (searchKey svc) with
        | none =>
            rw [hitem] at h
            cases h
        | some item =>
            rw [hitem] at h
            cases h
            cases eventType with
            | «instance» =>
                simp only [hasEntry, setEntry]
                by_cases hsame : sk = searchKey svc
                · rw [hsame, Function.update_self, hitem]
                  rfl
                · rw [Function.update_of_ne hsame]
            | _ => rfl
    · unfold applyEvent at h
      simp only [htype, applyDiscover, hvalue, hservice] at h
      unfold applyRules at h
      cases hitem : handler.governance type (searchKey svc) with
      | none =>
          rw [hitem] at h
          cases h
      | some item =>
          rw [hitem] at h
          cases h
          cases eventType with
          | governance other =>
              simp only [hasEntry]
              by_cases hsame : other = type ∧ sk = searchKey svc
              · rw [hsame.1, hsame.2, setRules_self, hitem]
                rfl
              · rw [setRules_of_ne _ _ hsame]
          | _ => rfl
    · simp only
      rw [heq]
      cases eventType <;> rfl
    · simp only
      rw [heq]
      cases eventType <;> rfl
    · simp only
      rw [heq]

/-! ## Registrations -/

def asksFor (text : String) (key : ResourceEventKey) : Bool :=
  match key.toText with
  | .error _ => false
  | .ok other => other == text

theorem asksFor_iff {text : String} {key : ResourceEventKey} :
    asksFor text key = true ↔ key.toText = .ok text := by
  unfold asksFor
  cases key.toText with
  | error panic => simp
  | ok other => simp

namespace PipelineState

variable {env : PipelineEnv} {server : SpecServer ρ} {s : PipelineState ρ}

def registrations (s : PipelineState ρ) (text : String) : Nat :=
  s.submitted.countP (asksFor text) + (s.connector.watches text).isSome.toNat

def RegisteredOnce (s : PipelineState ρ) : Prop :=
  ∀ eventType sk, ofService eventType = true →
    s.registrations (entryText eventType sk) = (hasEntry s.handler eventType sk).toNat

theorem registered_load (h : RegisteredOnce s) (key : ResourceEventKey) :
    RegisteredOnce (s.load key) := by
  intro eventType sk kept
  have hbefore := h eventType sk kept
  simp only [registrations, load] at hbefore ⊢
  by_cases htext : key.toText = .ok (entryText eventType sk)
  · obtain ⟨hsubmits, hentry⟩ := submits_iff kept htext s.handler
    rw [hsubmits, hentry]
    cases hold : hasEntry s.handler eventType sk with
    | true =>
        rw [hold] at hbefore
        exact hbefore
    | false =>
        rw [hold] at hbefore
        simp only [Bool.not_false, if_true, List.countP_append, List.countP_singleton,
          asksFor_iff.mpr htext]
        simp only [Bool.toNat_false, Bool.toNat_true] at hbefore ⊢
        omega
  · rw [hasEntry_of_other htext, ← hbefore]
    have hasks : asksFor (entryText eventType sk) key = false := by
      rw [← Bool.not_eq_true, asksFor_iff]
      exact htext
    split
    · simp [List.countP_append, hasks]
    · rfl

theorem watch_of_register (t : ConnectorState ρ (MemoryResourceWatcher ρ))
    {watcher : MemoryResourceWatcher ρ} {text : String}
    (htext : watcher.eventKey.toText = .ok text) :
    ((t.step env.connector server (.register watcher)).watches text).isSome = true := by
  cases hwatch : t.watches text with
  | some wrapper =>
      simp only [ConnectorState.step, ConnectorState.register_watch hwatch, Option.isSome_some]
  | none =>
      have hkey : (env.connector.ops.interestResource watcher).toText = .ok text := htext
      simp only [ConnectorState.step, ConnectorState.register, registerResourceHandler, hkey, bind,
        Except.bind, hwatch, pure, Except.pure]
      split
      · simp only [setWatch_self, Option.isSome_some]
      · rename_i after hsent
        rw [(ConnectorState.sendRequests_onlySends hsent).watches]
        simp only [setWatch_self, Option.isSome_some]

theorem watch_of_other (s : PipelineState ρ)
    {action : ConnectorState.Action (MemoryResourceWatcher ρ)} {text : String}
    (other : ∀ watcher, action = .register watcher → watcher.eventKey.toText ≠ .ok text) :
    ((s.connector.step env.connector server action).watches text).isSome =
      (s.connector.watches text).isSome := by
  rcases watch_cases env.connector server s.connector action text with
    hsame | ⟨watcher, haction, -, htext⟩ |
      ⟨wrapper, revision, discoverValue, configValue, hold, hnew⟩
  · rw [hsame]
  · exact absurd htext (other watcher haction)
  · rw [hold, hnew]
    rfl

theorem registered_runTask (h : RegisteredOnce s) (index : Nat) :
    RegisteredOnce (s.runTask env server index) := by
  unfold runTask
  split
  · exact h
  · rename_i key hkey
    intro eventType sk kept
    have hbefore := h eventType sk kept
    obtain ⟨hindex, rfl⟩ := List.getElem?_eq_some_iff.mp hkey
    have hcount := (List.getElem_cons_eraseIdx_perm hindex).countP_eq
      (asksFor (entryText eventType sk))
    rw [List.countP_cons] at hcount
    simp only [registrations] at hbefore ⊢
    by_cases htext : s.submitted[index].toText = .ok (entryText eventType sk)
    · rw [if_pos (asksFor_iff.mpr htext)] at hcount
      rw [watch_of_register s.connector htext]
      cases hwatch : (s.connector.watches (entryText eventType sk)).isSome with
      | false =>
          rw [hwatch] at hbefore
          simp only [Bool.toNat_false, Bool.toNat_true] at hbefore ⊢
          omega
      | true =>
          -- Both the task and the watch would be there for one entry.
          rw [hwatch] at hbefore
          have hle := Bool.toNat_le (hasEntry s.handler eventType sk)
          simp only [Bool.toNat_true] at hbefore
          omega
    · have hasks : ¬ asksFor (entryText eventType sk) s.submitted[index] = true := by
        rw [asksFor_iff]
        exact htext
      rw [if_neg hasks] at hcount
      rw [watch_of_other s (by
        intro watcher haction
        cases haction
        exact htext)]
      omega

theorem registered_foreign (h : RegisteredOnce s)
    {action : ConnectorState.Action (MemoryResourceWatcher ρ)} (foreign : isForeign action = true) :
    RegisteredOnce { s with connector := s.connector.step env.connector server action } := by
  intro eventType sk kept
  rw [← h eventType sk kept]
  unfold registrations
  rw [watch_of_other s]
  intro watcher haction htext
  subst haction
  have htype := (key_of_text kept htext).1
  simp only [isForeign, Bool.and_eq_true, htype] at foreign
  cases eventType with
  | «instance» => exact absurd foreign.2 (by decide)
  | governance type => exact absurd foreign.2 (by simp)
  | _ => cases kept

theorem registered_handler (h : RegisteredOnce s) {handler : MemoryResourceHandler ρ}
    (same : ∀ eventType sk, hasEntry handler eventType sk = hasEntry s.handler eventType sk)
    (received : String → Nat) :
    RegisteredOnce { s with handler := handler, received := received } := by
  intro eventType sk kept
  rw [same, ← h eventType sk kept]
  rfl

theorem registered_step (h : RegisteredOnce s) (action : Action ρ) :
    RegisteredOnce (s.step env server action) := by
  cases action with
  | load key => exact registered_load h key
  | runTask index => exact registered_runTask h index
  | connector action =>
      simp only [step]
      split
      · rename_i foreign
        exact registered_foreign h foreign
      · exact h
  | receive text =>
      simp only [step, receive]
      split
      · exact h
      · exact registered_handler h (hasEntry_onSpecEvent _ _) _
  | recover event =>
      simp only [step, recover]
      split
      · exact registered_handler h (hasEntry_onSpecEvent _ _) _
      · exact h

/-- In every run, however the loads, the spawned tasks, the connector and the cache take turns: an
entry of instances or rules has one registration, about to be made or made, and a resource without
an entry has none. -/
theorem registered_once (actions : List (Action ρ)) {eventType : EventType} {sk : String}
    (kept : ofService eventType = true) :
    (run (step env server) new actions).registrations (entryText eventType sk) =
      (hasEntry (run (step env server) new actions).handler eventType sk).toNat := by
  have hstep : ∀ (t : PipelineState ρ) (a : Action ρ), RegisteredOnce t → True →
      RegisteredOnce (t.step env server a) :=
    fun t a ht _ => registered_step ht a
  have hnew : RegisteredOnce (new : PipelineState ρ) := by
    intro eventType sk kept
    cases eventType <;> rfl
  exact run_invariant hstep hnew (along_of_forall fun _ _ _ => trivial) eventType sk kept

theorem orders_registered_once :
    (run (step ordersPipeline ordersServer) new
      [.load ordersInstances, .load ordersInstances, .runTask 0]).registrations
        (entryText .«instance» "prod#orders") = 1 :=
  registered_once _ rfl

end PipelineState

end PoleClient.Cache
