import Savitools.Simulator.PoolDeposits
import Savitools.Transitions.Runs

namespace Savitools.Simulator.PoolRuns

open Transitions.Runs Strings.CodeUnits LpMath PoolDeposits PoolWithdrawals Shares.ProRata

/-- A pool in which a holder, or several together, have `own` of the shares, with what they have taken out on balance. -/
structure State where
  reserveA : Int
  reserveB : Int
  totalShares : Int
  own : Int
  gainedA : Int := 0
  gainedB : Int := 0
deriving DecidableEq

/-- The holder deposits or withdraws as quoted, if it has the shares. -/
inductive Act
  | deposit (depositA depositB : Option Int)
  | withdraw (sharesToBurn desiredA : Option Int)

def step : Step State Act
  | s, .deposit depositA depositB =>
      match quoteDeposit ⟨s.reserveA, s.reserveB, s.totalShares, depositA, depositB⟩ with
      | .error _ => none
      | .ok quote => some {
          reserveA := s.reserveA + quote.depositA
          reserveB := s.reserveB + quote.depositB
          totalShares := s.totalShares + quote.sharesOut
          own := s.own + quote.sharesOut
          gainedA := s.gainedA - quote.depositA
          gainedB := s.gainedB - quote.depositB }
  | s, .withdraw sharesToBurn desiredA =>
      match quoteWithdrawal ⟨s.reserveA, s.reserveB, s.totalShares, sharesToBurn, desiredA⟩ with
      | .error _ => none
      | .ok quote =>
          if quote.sharesToBurn ≤ s.own then some {
            reserveA := s.reserveA - quote.reserveAOut
            reserveB := s.reserveB - quote.reserveBOut
            totalShares := s.totalShares - quote.sharesToBurn
            own := s.own - quote.sharesToBurn
            gainedA := s.gainedA + quote.reserveAOut
            gainedB := s.gainedB + quote.reserveBOut }
          else none

theorem burnedShares_range {pool : SharedPool} {sharesToBurn desiredA : Option Int} {burned : Int}
    (h : burnedShares ⟨pool.reserveA, pool.reserveB, pool.totalShares, sharesToBurn, desiredA⟩ = .ok burned) :
    0 < burned ∧ burned ≤ pool.totalShares := by
  cases sharesToBurn with
  | some shares =>
      cases desiredA with
      | some desired => cases h
      | none =>
          simp only [burnedShares] at h
          split at h
          next => cases h
          next hpos =>
            split at h
            next => cases h
            next hle =>
              obtain rfl := Except.ok.inj h
              omega
  | none =>
      cases desiredA with
      | none => cases h
      | some desired =>
          by_cases hrange : 0 < desired ∧ desired ≤ pool.reserveA
          · obtain rfl := Except.ok.inj ((burnedShares_desired pool hrange.1 hrange.2).symm.trans h)
            exact portionUp_range pool hrange.1 hrange.2
          · simp only [burnedShares] at h
            split at h
            next => cases h
            next hpos =>
              split at h
              next => cases h
              next hle => omega

/-- A quoted withdrawal pays the portions of its shares. -/
theorem quoteWithdrawal_pays {input : WithdrawalInput} {quote : WithdrawalResult} (h : quoteWithdrawal input = .ok quote) :
    (0 < input.reserveA ∧ 0 < input.reserveB ∧ 0 < input.totalShares) ∧ 0 < quote.sharesToBurn ∧
      quote.reserveAOut = portion quote.sharesToBurn input.reserveA input.totalShares ∧
      quote.reserveBOut = portion quote.sharesToBurn input.reserveB input.totalShares := by
  have hpos : 0 < input.reserveA ∧ 0 < input.reserveB ∧ 0 < input.totalShares := by
    rw [quoteWithdrawal] at h
    split at h
    next => cases h
    next =>
      split at h
      next => cases h
      next => omega
  obtain ⟨hA, hB, htotal⟩ := hpos
  let pool : SharedPool := ⟨⟨input.reserveA, input.reserveB, input.totalShares, hA, hB⟩, htotal⟩
  cases hburned : burnedShares input with
  | error error => cases (@quoteWithdrawal_refused pool _ _ rfl rfl rfl hburned).symm.trans h
  | ok burned =>
      obtain ⟨hburnedpos, hle⟩ := @burnedShares_range pool input.sharesToBurn input.desiredA burned hburned
      obtain ⟨quoted, hsame, houtA, houtB, heq⟩ := quoteWithdrawal_eq pool rfl rfl rfl hburned hburnedpos hle
      rw [h] at heq
      split at heq
      next => cases heq
      next =>
        split at heq
        next => cases heq
        next =>
          obtain rfl := Except.ok.inj heq
          exact ⟨⟨hA, hB, htotal⟩, hsame ▸ hburnedpos, hsame ▸ houtA, hsame ▸ houtB⟩

/-- On both sides the holder has dealt with the pool as with a fund. -/
structure Inv (start s : State) : Prop where
  sideA : Dealt start.reserveA start.totalShares start.own s.reserveA s.totalShares s.own s.gainedA
  sideB : Dealt start.reserveB start.totalShares start.own s.reserveB s.totalShares s.own s.gainedB

theorem inv_preserved {start : State} (htotal : 0 < start.totalShares) : Preserves step always (Inv start) := by
  intro s a t hs _ h
  cases a with
  | deposit depositA depositB =>
      rw [step] at h
      split at h
      next => cases h
      next quote hquote =>
        obtain rfl := Option.some.inj h
        have hlive : 0 < s.totalShares := by
          obtain ⟨pool, side, amount, -, hinput⟩ := depositInput_of_ok hquote
          have hsame : s.reserveA = pool.reserveA :=
            (congrArg DepositInput.reserveA hinput).trans (by cases side <;> rfl)
          have hA : 0 < s.reserveA := hsame ▸ pool.reserveA_pos
          rcases hs.sideA.live with ⟨-, hshares⟩ | ⟨hempty, -⟩
          · exact hshares
          · omega
        obtain ⟨-, hfairA, hfairB⟩ := quoteDeposit_fair hlive hquote
        exact ⟨hs.sideA.issue htotal hfairA, hs.sideB.issue htotal hfairB⟩
  | withdraw sharesToBurn desiredA =>
      rw [step] at h
      split at h
      next => cases h
      next quote hquote =>
        split at h
        next hown =>
          obtain rfl := Option.some.inj h
          obtain ⟨⟨hA, hB, hshares⟩, hpos, houtA, houtB⟩ := quoteWithdrawal_pays hquote
          rw [houtA, houtB]
          exact ⟨hs.sideA.redeem htotal hA hshares hpos.le hown, hs.sideB.redeem htotal hB hshares hpos.le hown⟩
        next => cases h

/-- A holder among others of a pool. -/
structure Holder (pool : SharedPool) where
  own : Int
  own_nonneg : 0 ≤ own
  own_le : own ≤ pool.totalShares

def start {pool : SharedPool} (holder : Holder pool) : State where
  reserveA := pool.reserveA
  reserveB := pool.reserveB
  totalShares := pool.totalShares
  own := holder.own

/-- Whatever is deposited and withdrawn, in any order: what has been taken out and can still be taken is no more than what
could be taken at first, and any other shares are paid no less than before. -/
theorem no_profit (pool : SharedPool) (holder : Holder pool) (acts : List Act) :
    Throughout step (fun s =>
      (s.gainedA + portion s.own s.reserveA s.totalShares ≤ portion holder.own pool.reserveA pool.totalShares ∧
        s.gainedB + portion s.own s.reserveB s.totalShares ≤ portion holder.own pool.reserveB pool.totalShares) ∧
      ∀ others, 0 ≤ others → others ≤ pool.totalShares - holder.own →
        portion others pool.reserveA pool.totalShares ≤ portion others s.reserveA s.totalShares ∧
        portion others pool.reserveB pool.totalShares ≤ portion others s.reserveB s.totalShares) (start holder) acts := by
  have hA := pool.reserveA_pos
  have hB := pool.reserveB_pos
  have htotal := pool.totalShares_pos
  refine (inv_preserved htotal).throughout (fun s hs => ?_) ⟨.start hA htotal holder.own_nonneg holder.own_le,
    .start hB htotal holder.own_nonneg holder.own_le⟩ (guarded_always _ _ _)
  refine ⟨⟨hs.sideA.gained_le hA htotal holder.own_nonneg, hs.sideB.gained_le hB htotal holder.own_nonneg⟩, ?_⟩
  intro others hothers hle
  exact ⟨hs.sideA.others_keep hA htotal hothers hle, hs.sideB.others_keep hB htotal hothers hle⟩

end Savitools.Simulator.PoolRuns
