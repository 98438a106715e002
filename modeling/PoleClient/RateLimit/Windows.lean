import PoleClient.RateLimit.LocalCounter

/-! # Window lookups, charges and settlements

Within one reservation the keys of the amounts determine their durations, so a
window looked up a second time is found as the first lookup left it. Both loops
of a reservation and the settlement loop then act on each key separately.
-/

namespace PoleClient.RateLimit

open Lib

/-! ## Lookups -/

section Lookups

variable {now : Nat} {keyOf : Nat → String}

theorem rotate_rotate {seconds : Nat} (pos : 1 ≤ seconds) (window : QuotaWindow) :
    (window.rotate now seconds).rotate now seconds = window.rotate now seconds := by
  have hpos : 0 < seconds * nanosPerSecond := Nat.mul_pos pos (by decide)
  unfold QuotaWindow.rotate
  split
  · rw [if_neg (by simp only; omega)]
  · rfl

theorem currentWindow_none {windows : String → Option QuotaWindow} {key : String} {seconds : Nat}
    (h : windows key = none) (pos : 1 ≤ seconds) :
    currentWindow now seconds windows key = .fresh now := by
  have hpos : 0 < seconds * nanosPerSecond := Nat.mul_pos pos (by decide)
  unfold currentWindow QuotaWindow.rotate QuotaWindow.fresh
  rw [h, Option.getD_none, if_neg (by simp only; omega)]

theorem currentWindow_self (seconds : Nat) (pos : 1 ≤ seconds)
    (windows : String → Option QuotaWindow) :
    currentWindow now seconds
        (Function.update windows (keyOf seconds)
          (some (currentWindow now seconds windows (keyOf seconds)))) (keyOf seconds) =
      currentWindow now seconds windows (keyOf seconds) := by
  unfold currentWindow
  rw [Function.update_self, Option.getD_some, rotate_rotate pos]

theorem currentWindow_update (inj : Function.Injective keyOf) {seconds other : Nat}
    (pos : 1 ≤ seconds) (windows : String → Option QuotaWindow) :
    currentWindow now other
        (Function.update windows (keyOf seconds)
          (some (currentWindow now seconds windows (keyOf seconds)))) (keyOf other) =
      currentWindow now other windows (keyOf other) := by
  by_cases hsame : other = seconds
  · subst hsame
    exact currentWindow_self other pos windows
  · have hkey : keyOf other ≠ keyOf seconds := fun h => hsame (inj h)
    unfold currentWindow
    rw [Function.update_of_ne hkey]

def lookedUp (now : Nat) (keyOf : Nat → String) (windows : String → Option QuotaWindow)
    (limits : List Amount) : String → Option QuotaWindow :=
  limits.foldl (fun windows limit => Function.update windows (keyOf (amountDuration limit))
    (some (currentWindow now (amountDuration limit) windows (keyOf (amountDuration limit)))))
    windows

theorem lookedUp_kept (inj : Function.Injective keyOf) {windows : String → Option QuotaWindow}
    {seconds : Nat} {window : QuotaWindow} (h : windows (keyOf seconds) = some window)
    (young : window.rotate now seconds = window) (limits : List Amount) :
    lookedUp now keyOf windows limits (keyOf seconds) = some window := by
  induction limits generalizing windows with
  | nil => exact h
  | cons limit limits ih =>
      rw [lookedUp, List.foldl_cons]
      apply ih
      by_cases hkey : keyOf (amountDuration limit) = keyOf seconds
      · have hseconds : amountDuration limit = seconds := inj hkey
        rw [hseconds, Function.update_self, currentWindow, h, Option.getD_some, young]
      · rw [Function.update_of_ne (Ne.symm hkey), h]

variable (now) in
/-- Every amount finds its window as the state before the reservation has it, created or
rotated. -/
theorem lookedUp_of_mem (inj : Function.Injective keyOf) (windows : String → Option QuotaWindow)
    {limits : List Amount} {limit : Amount} (h : limit ∈ limits) :
    lookedUp now keyOf windows limits (keyOf (amountDuration limit)) =
      some (currentWindow now (amountDuration limit) windows (keyOf (amountDuration limit))) := by
  induction limits generalizing windows with
  | nil => simp at h
  | cons first limits ih =>
      rw [lookedUp, List.foldl_cons]
      rcases List.mem_cons.mp h with rfl | h
      · exact lookedUp_kept inj (Function.update_self _ _ _)
          (rotate_rotate (one_le_amountDuration limit) _) limits
      · refine (ih _ h).trans ?_
        rw [currentWindow_update inj (one_le_amountDuration first)]

def reservationFor (now : Nat) (keyOf : Nat → String) (windows : String → Option QuotaWindow)
    (limit : Amount) : LocalWindowReservation :=
  ⟨keyOf (amountDuration limit),
    (currentWindow now (amountDuration limit) windows (keyOf (amountDuration limit))).generation⟩

variable (now) in
/-- The check succeeds if every amount has room in its window; it then has looked up all
windows. Otherwise it stops having looked up some of them. -/
theorem checkWindows_spec (inj : Function.Injective keyOf) (arith : CounterArith) (amount : Nat)
    (windows : String → Option QuotaWindow) (limits : List Amount) :
    ((∀ limit ∈ limits, ¬ exceeds arith (currentWindow now (amountDuration limit) windows
          (keyOf (amountDuration limit))) amount limit.maxAmount.toNat) ∧
        checkWindows arith now keyOf amount windows limits =
          (lookedUp now keyOf windows limits,
            some (limits.map (reservationFor now keyOf windows)))) ∨
      ((∃ limit ∈ limits, exceeds arith (currentWindow now (amountDuration limit) windows
          (keyOf (amountDuration limit))) amount limit.maxAmount.toNat) ∧
        ∃ visited, visited <+: limits ∧ checkWindows arith now keyOf amount windows limits =
          (lookedUp now keyOf windows visited, none)) := by
  induction limits generalizing windows with
  | nil => exact .inl ⟨by simp, rfl⟩
  | cons limit limits ih =>
      rw [checkWindows]
      by_cases hexceeds : exceeds arith (currentWindow now (amountDuration limit) windows
          (keyOf (amountDuration limit))) amount limit.maxAmount.toNat
      · refine .inr ⟨⟨limit, List.mem_cons_self, hexceeds⟩, [limit], ⟨limits, rfl⟩, ?_⟩
        simp only [if_pos hexceeds]
        rfl
      · have hwindow : ∀ l : Amount, currentWindow now (amountDuration l)
            (Function.update windows (keyOf (amountDuration limit)) (some (currentWindow now
              (amountDuration limit) windows (keyOf (amountDuration limit)))))
            (keyOf (amountDuration l)) =
            currentWindow now (amountDuration l) windows (keyOf (amountDuration l)) := fun l =>
          currentWindow_update inj (one_le_amountDuration limit) windows
        simp only [if_neg hexceeds]
        rcases ih (Function.update windows (keyOf (amountDuration limit)) (some (currentWindow now
          (amountDuration limit) windows (keyOf (amountDuration limit))))) with
          ⟨hroom, hcheck⟩ | ⟨⟨l, hl, hlexceeds⟩, visited, hfirst, hcheck⟩
        · simp only [hwindow] at hroom
          refine .inl ⟨fun l hl => ?_, ?_⟩
          · rcases List.mem_cons.mp hl with rfl | hl
            · exact hexceeds
            · exact hroom l hl
          · have hreservation : reservationFor now keyOf
                (Function.update windows (keyOf (amountDuration limit)) (some (currentWindow now
                  (amountDuration limit) windows (keyOf (amountDuration limit))))) =
                reservationFor now keyOf windows := by
              funext l
              rw [reservationFor, hwindow]
              rfl
            rw [hcheck, hreservation]
            rfl
        · rw [hwindow] at hlexceeds
          refine .inr ⟨⟨l, List.mem_cons_of_mem limit hl, hlexceeds⟩, limit :: visited,
            List.cons_prefix_cons.mpr ⟨rfl, hfirst⟩, ?_⟩
          rw [hcheck]
          rfl

end Lookups

/-! ## Charges -/

theorem chargeWindows_apply (arith : CounterArith) (amount : Nat)
    (reservations : List LocalWindowReservation) (windows : String → Option QuotaWindow)
    (key : String) :
    reservations.foldl (chargeWindow arith amount) windows key =
      (windows key).map fun window => { window with
        reserved := (fun reserved => arith.add reserved amount)^[reservations.countP fun r =>
          r.key = key] window.reserved } := by
  induction reservations generalizing windows with
  | nil => simp
  | cons r reservations ih =>
      rw [List.foldl_cons, ih, List.countP_cons]
      unfold chargeWindow
      by_cases hkey : r.key = key
      · subst hkey
        cases h : windows r.key with
        | none => simp [h]
        | some window => simp [Function.iterate_succ_apply]
      · cases windows r.key with
        | none => simp [hkey]
        | some window => simp [Function.update_of_ne (Ne.symm hkey), hkey]

theorem chargeWindows_some {arith : CounterArith} {amount : Nat}
    {reservations : List LocalWindowReservation} {windows : String → Option QuotaWindow}
    {key : String} {before : QuotaWindow} (h : windows key = some before) :
    ∃ window, reservations.foldl (chargeWindow arith amount) windows key = some window ∧
      window.committed = before.committed ∧
      window.reserved = (fun reserved => arith.add reserved amount)^[reservations.countP fun r =>
        r.key = key] before.reserved := by
  rw [chargeWindows_apply, h, Option.map_some]
  exact ⟨_, rfl, rfl, rfl⟩

/-! ## Settlements -/

theorem settleWindow_apply (arith : CounterArith) (lease : LocalLeaseState)
    (windows : String → Option QuotaWindow) (r : LocalWindowReservation) (key : String) :
    settleWindow arith lease windows r key =
      (windows key).map fun window =>
        if r = ⟨key, window.generation⟩ then { window with
          reserved := window.reserved - lease.reservedAmount
          committed := arith.saturatingAdd window.committed lease.consumedTotal }
        else window := by
  rcases r with ⟨rkey, generation⟩
  unfold settleWindow
  simp only [LocalWindowReservation.mk.injEq]
  by_cases hkey : rkey = key
  · subst hkey
    cases h : windows rkey with
    | none => simp [h]
    | some window =>
        by_cases hgen : window.generation = generation
        · simp [hgen]
        · have hne : ¬ generation = window.generation := fun h => hgen h.symm
          simp [hgen, hne, h]
  · cases windows rkey with
    | none => cases h : windows key <;> simp [hkey, h]
    | some window =>
        by_cases hgen : window.generation = generation
        · simp only [hgen, ne_eq, not_true_eq_false, if_false,
            Function.update_of_ne (Ne.symm hkey), hkey, false_and]
          cases windows key <;> rfl
        · simp only [hgen, ne_eq, not_false_eq_true, if_true, hkey, false_and, if_false]
          cases windows key <;> rfl

end PoleClient.RateLimit
