import Bourse.Proofs.Depth.Market
import Mathlib.Algebra.Order.BigOperators.Group.List
import Mathlib.Algebra.Order.Group.Nat
import Mathlib.Data.List.DropRight

/-!
# Market depth under calls

Market depth is looked at under a sequence of `DepthCall`s: reports that come in, updates that are
taken, and questions. Beside it stands plain arithmetic: what the calls add up to at a price
(`level`), and how far that is from the last update (`pending`), as numbers without bounds.

Depth `Tracks` the calls if its levels and its pending differences are these numbers. Quantities
have 64 bits and differences have one bit less and a sign, so this needs more than levels that fit:
each call has to be `Moderate` (`MarketDepth.exact_iff_moderate`).
-/

namespace Bourse

/-- What is asked of market depth. -/
inductive DepthCall where
  /-- A report is taken in. -/
  | report (r : Report)
  /-- The changes since the last update are taken. -/
  | takeUpdate
  /-- The quantity at a price is looked up. -/
  | quantityAt (s : Side) (p : Price)
  /-- The quantities of a side are added up. -/
  | total (s : Side)

/-- What market depth answers. -/
inductive DepthAnswer where
  | done
  | update (u : DepthUpdate)
  | quantity (q : Quantity)

namespace DepthCall

/-- The call takes an update. -/
def isUpdate : DepthCall → Bool
  | takeUpdate => true
  | report _ | quantityAt .. | total _ => false

/-- The trade that the call reports. -/
def trade? : DepthCall → Option TradeTick
  | report (.trade tick) => some tick
  | report (.add ..) | report (.close ..) | takeUpdate | quantityAt .. | total _ => none

/-- What a call makes of the quantity at a price of a side. A close takes off as much as there
is. -/
def level (s : Side) (p : Price) (n : Nat) : DepthCall → Nat
  | report (.add isMarket s' p' q) =>
    if isMarket = false ∧ s' = s ∧ p'.Same p then n + q.toNat else n
  | report (.close isMarket s' p' q) =>
    if isMarket = false ∧ s' = s ∧ p'.Same p then n - q.toNat else n
  | report (.trade _) | takeUpdate | quantityAt .. | total _ => n

end DepthCall

namespace MarketDepth

open Bourse.Action

variable {s : Logged MarketDepth} {calls : List DepthCall} {c : DepthCall} {side : Side}
  {p : Price} {i : InstrumentId} {history : Nat}

/-- Carries out a call. -/
def serve : DepthCall → Action MarketDepth DepthAnswer
  | .report r => do
    receive r
    return .done
  | .takeUpdate => do
    let d ← current
    replace d.takeUpdate.2
    return .update d.takeUpdate.1
  | .quantityAt s p => return .quantity ((← current).quantityAt s p)
  | .total s => return .quantity (← Action.ofExcept ((← current).total s))

/-- Market depth that nothing was asked of yet. -/
def opening (i : InstrumentId) (history : Nat) : Logged MarketDepth := ⟨empty i history, #[]⟩

/-! ## What calls add up to -/

/-- The quantity at a price of a side that calls add up to. -/
def level (calls : List DepthCall) (s : Side) (p : Price) : Nat :=
  calls.foldl (DepthCall.level s p) 0

/-- The calls up to the last update. -/
def untilUpdate (calls : List DepthCall) : List DepthCall := calls.rdropWhile fun c => !c.isUpdate

/-- The calls since the last update. -/
def sinceUpdate (calls : List DepthCall) : List DepthCall := calls.rtakeWhile fun c => !c.isUpdate

/-- How far the quantity at a price is from that at the last update. -/
def pending (calls : List DepthCall) (s : Side) (p : Price) : Int :=
  level calls s p - level (untilUpdate calls) s p

/-- The level after a further call. -/
theorem level_concat (calls : List DepthCall) (c : DepthCall) (s : Side) (p : Price) :
    level (calls ++ [c]) s p = c.level s p (level calls s p) := by
  rw [level, List.foldl_append]
  rfl

/-- The calls until the last update, after a further call. -/
theorem untilUpdate_concat (calls : List DepthCall) (c : DepthCall) :
    untilUpdate (calls ++ [c]) = if c.isUpdate then calls ++ [c] else untilUpdate calls := by
  unfold untilUpdate
  rw [List.rdropWhile_concat]
  cases c.isUpdate <;> rfl

/-- The calls since the last update, after a further call. -/
theorem sinceUpdate_concat (calls : List DepthCall) (c : DepthCall) :
    sinceUpdate (calls ++ [c]) = if c.isUpdate then [] else sinceUpdate calls ++ [c] := by
  unfold sinceUpdate
  rw [List.rtakeWhile_concat]
  cases c.isUpdate <;> rfl

/-- A call that takes no update moves what is pending as it moves the level. -/
theorem pending_concat (h : c.isUpdate = false) (s : Side) (p : Price) :
    pending (calls ++ [c]) s p =
      pending calls s p + (level (calls ++ [c]) s p - level calls s p) := by
  unfold pending
  rw [untilUpdate_concat, h]
  simp only [Bool.false_eq_true, if_false]
  omega

/-- Nothing is pending after an update. -/
theorem pending_concat_update (h : c.isUpdate = true) (s : Side) (p : Price) :
    pending (calls ++ [c]) s p = 0 := by
  unfold pending
  rw [untilUpdate_concat, if_pos h]
  exact sub_self _

/-- At all times the levels of each side are below a bound together. -/
def SumsBelow (bound : Nat) (calls : List DepthCall) : Prop :=
  ∀ pre, pre <+: calls → ∀ s, ∀ ps : List Price, (ps.map Price.units).Nodup →
    (ps.map (level pre s)).sum < bound

theorem SumsBelow.mono {bound bound' : Nat} (h : SumsBelow bound calls) (hle : bound ≤ bound') :
    SumsBelow bound' calls := fun pre hpre s ps hps => (h pre hpre s ps hps).trans_le hle

/-- Sums stay below the bound on earlier calls. -/
theorem SumsBelow.before {bound : Nat} {pre : List DepthCall} (h : SumsBelow bound calls)
    (hpre : pre <+: calls) : SumsBelow bound pre := fun _ hpre' => h _ (hpre'.trans hpre)

/-- A level of which the sums are below the bound is so itself. -/
theorem SumsBelow.level_lt {bound : Nat} (h : SumsBelow bound calls) {pre : List DepthCall}
    (hpre : pre <+: calls) (s : Side) (p : Price) : level pre s p < bound := by
  simpa using h pre hpre s [p] (List.nodup_singleton _)

/-- What a call adds, at whatever price. -/
def added : DepthCall → Nat
  | .report (.add _ _ _ q) => q.toNat
  | .report (.close ..) | .report (.trade _) | .takeUpdate | .quantityAt .. | .total _ => 0

/-- Of prices of different values at most one is raised. -/
theorem sum_raised_le (f : Price → Nat) (p : Price) (n : Nat) {ps : List Price}
    (hps : (ps.map Price.units).Nodup) :
    (ps.map fun r => if p.Same r then f r + n else f r).sum ≤ (ps.map f).sum + n := by
  induction ps with
  | nil => exact Nat.zero_le _
  | cons r rest ih =>
    obtain ⟨hr, hrest⟩ := List.nodup_cons.1 hps
    rw [List.map_cons, List.sum_cons, List.map_cons, List.sum_cons]
    by_cases hp : p.Same r
    · have hothers : (rest.map fun r => if p.Same r then f r + n else f r) = rest.map f := by
        refine List.map_congr_left fun r' hr' => if_neg fun hp' => hr ?_
        exact (hp.symm.trans hp' : r.units = r'.units) ▸ List.mem_map_of_mem hr'
      rw [if_pos hp, hothers]
      omega
    · have := ih hrest
      rw [if_neg hp]
      omega

/-- A call raises the levels of a side together by what it adds at most. -/
theorem sum_level_concat_le (calls : List DepthCall) (c : DepthCall) (s : Side) {ps : List Price}
    (hps : (ps.map Price.units).Nodup) :
    (ps.map (level (calls ++ [c]) s)).sum ≤ (ps.map (level calls s)).sum + added c := by
  have hlower : (∀ r n, c.level s r n ≤ n) →
      (ps.map (level (calls ++ [c]) s)).sum ≤ (ps.map (level calls s)).sum + added c := fun h =>
    (List.sum_le_sum fun r _ => level_concat calls c s r ▸ h r _).trans (Nat.le_add_right _ _)
  cases c with
  | report r =>
    cases r with
    | add isMarket s' p q =>
      refine le_trans (List.sum_le_sum fun r _ => ?_) (sum_raised_le (level calls s) p q.toNat hps)
      rw [level_concat]
      by_cases hp : p.Same r
      · rw [if_pos hp, DepthCall.level]
        split <;> omega
      · rw [if_neg hp, DepthCall.level, if_neg fun h => hp h.2.2]
    | close isMarket s' p q =>
      refine hlower fun r n => ?_
      rw [DepthCall.level]
      split <;> omega
    | trade _ => exact hlower fun _ _ => le_rfl
  | takeUpdate | quantityAt _ _ | total _ => exact hlower fun _ _ => le_rfl

/-- The levels of a side are together at most what was added. -/
theorem sum_level_le (calls : List DepthCall) (s : Side) {ps : List Price}
    (hps : (ps.map Price.units).Nodup) :
    (ps.map (level calls s)).sum ≤ (calls.map added).sum := by
  induction calls using List.reverseRecOn with
  | nil => exact (List.sum_eq_zero (by simp [level])).le
  | append_singleton calls c ih =>
    have hstep := sum_level_concat_le calls c s hps
    rw [List.map_append, List.sum_append, List.map_singleton, List.sum_singleton]
    omega

/-- Sums are below the bound if all that is ever added is. -/
theorem sumsBelow_of_added {bound : Nat} (h : (calls.map added).sum < bound) :
    SumsBelow bound calls := by
  intro pre hpre s ps hps
  have hle : (pre.map added).sum ≤ (calls.map added).sum :=
    (hpre.sublist.map added).sum_le_sum fun _ _ => Nat.zero_le _
  exact ((sum_level_le pre s hps).trans hle).trans_lt h

/-! ## What market depth makes of calls -/

/-- The levels and the pending differences are what the calls add up to. -/
structure Tracks (calls : List DepthCall) (d : MarketDepth) : Prop where
  held : ∀ s p, d.held s p = level calls s p
  change : ∀ s p, d.change s p = pending calls s p

/-- A call moves no level by 2⁶³ or more, and leaves none that is so far from what it was at the
last update that the difference does not fit in 64 bits with a sign. -/
structure Moderate (calls : List DepthCall) (c : DepthCall) : Prop where
  move : ∀ s p, level (calls ++ [c]) s p < level calls s p + 2 ^ 63 ∧
    level calls s p < level (calls ++ [c]) s p + 2 ^ 63
  pending : ∀ s p, Delta.Fits (pending (calls ++ [c]) s p)

/-- The calls are answered, and leave market depth on their track. -/
def Exact (i : InstrumentId) (history : Nat) (calls : List DepthCall) : Prop :=
  Ends (inTurn serve calls) (opening i history) (fun _ t => Tracks calls t.state)
    (fun _ _ => False)

/-- Fresh market depth tracks no calls. -/
theorem tracks_opening (i : InstrumentId) (history : Nat) : Tracks [] (opening i history).state :=
  ⟨fun s _ => by cases s <;> rfl, fun s _ => by cases s <;> rfl⟩

/-- A call that moves depth as it moves the level at one price keeps it on its track. -/
theorem Tracks.of_moved {d d' : MarketDepth} {n : Int} (h : Tracks calls d)
    (hc : c.isUpdate = false) (hm : Moved d d' side p n)
    (hlevel : ∀ s r, (level (calls ++ [c]) s r : Int) =
      level calls s r + if side = s ∧ p.Same r then n else 0) : Tracks (calls ++ [c]) d' := by
  constructor <;> intro s r
  · have := hm.held s r
    have := h.held s r
    have := hlevel s r
    omega
  · have := hm.change s r
    have := h.change s r
    have := hlevel s r
    rw [pending_concat hc]
    omega

/-- A question keeps depth on its track. -/
theorem Tracks.asked {d : MarketDepth} (h : Tracks calls d) (hc : c.isUpdate = false)
    (hlevel : ∀ s r, level (calls ++ [c]) s r = level calls s r) : Tracks (calls ++ [c]) d :=
  h.of_moved hc (.refl d .ask .market) fun s r => by rw [hlevel, ite_self, add_zero]

/-- Adding to a level is tracked if nothing overflows. -/
theorem ends_receive_add {isMarket : Bool} {q : Quantity} (h : Tracks calls s.state)
    (hsum : SumsBelow (2 ^ 64) (calls ++ [.report (.add isMarket side p q)]))
    (hmod : Moderate calls (.report (.add isMarket side p q))) :
    Ends (receive (.add isMarket side p q)) s
      (fun _ t => Tracks (calls ++ [.report (.add isMarket side p q)]) t.state)
      (fun _ _ => False) := by
  have hlevel : ∀ s r, level (calls ++ [.report (.add isMarket side p q)]) s r =
      if isMarket = false ∧ side = s ∧ p.Same r then level calls s r + q.toNat
      else level calls s r := fun s r => level_concat ..
  have hat := fun hm : isMarket = false =>
    (hlevel side p).trans (if_pos ⟨hm, rfl, rfl⟩)
  have hheld := h.held side p
  refine (ends_addOrder (fun hm => ?_) (fun hm => ?_) fun hm => ?_).imp
    fun _ t ht => h.of_moved rfl ht.1 fun s r => ?_
  · have := hsum.level_lt (List.prefix_refl _) side p
    have := hat hm
    omega
  · have := (hmod.move side p).1
    have := hat hm
    omega
  · have hfits := hmod.pending side p
    rw [pending_concat rfl, hat hm] at hfits
    rw [h.change]
    unfold Delta.Fits at *
    omega
  · rw [hlevel]
    cases isMarket with
    | true => simp
    | false =>
      simp only [true_and, Bool.false_eq_true, if_false]
      split <;> omega

/-- Closing from a level is tracked if nothing overflows. -/
theorem ends_receive_close {isMarket : Bool} {q : Quantity} (h : Tracks calls s.state)
    (hmod : Moderate calls (.report (.close isMarket side p q))) :
    Ends (receive (.close isMarket side p q)) s
      (fun _ t => Tracks (calls ++ [.report (.close isMarket side p q)]) t.state)
      (fun _ _ => False) := by
  have hlevel : ∀ s r, level (calls ++ [.report (.close isMarket side p q)]) s r =
      if isMarket = false ∧ side = s ∧ p.Same r then level calls s r - q.toNat
      else level calls s r := fun s r => level_concat ..
  have hat := fun hm : isMarket = false =>
    (hlevel side p).trans (if_pos ⟨hm, rfl, rfl⟩)
  have hheld := h.held side p
  refine (ends_closeOrder (fun hm => ?_) fun hm => ?_).imp
    fun _ t ht => h.of_moved rfl ht.1 fun s' r => ?_
  · have := (hmod.move side p).2
    have := hat hm
    omega
  · have hfits := hmod.pending side p
    rw [pending_concat rfl, hat hm] at hfits
    rw [h.change]
    unfold Delta.Fits at *
    omega
  · rw [hlevel]
    by_cases hsr : side = s' ∧ p.Same r
    · obtain ⟨rfl, hp⟩ := hsr
      have hsame : level calls side r = s.state.held side p :=
        (h.held side r).symm.trans ((s.state.levels side).held_congr hp).symm
      cases isMarket with
      | true => simp
      | false =>
        simp only [hp, and_self, if_true, Bool.false_eq_true, if_false]
        omega
    · simp [hsr]

/-- The entries of a side are below what its levels are below together. -/
theorem Tracks.sum_entries_lt {d : MarketDepth} {bound : Nat} (h : Tracks calls d)
    (hsum : SumsBelow bound calls) (side : Side) :
    ((d.levels side).depth.entries.map (·.2.toNat)).sum < bound := by
  have hlevels : (d.levels side).depth.entries.map (·.2.toNat) =
      ((d.levels side).depth.entries.map (·.1)).map (level calls side) := by
    rw [Levels.map_entries]
    exact List.map_congr_left fun p _ => h.held side p
  exact hlevels ▸ hsum _ (List.prefix_refl _) side _ (PriceMap.nodup_units _)

/-- The quantities of a side are added up if its levels fit. -/
theorem ends_total (h : Tracks calls s.state) (hsum : SumsBelow (2 ^ 64) calls) (side : Side) :
    Ends (serve (.total side)) s
      (fun a t => t = s ∧ ∃ q, a = .quantity q ∧ s.state.total side = .ok q)
      (fun _ _ => False) := by
  obtain ⟨q, hq, -⟩ := Levels.total_eq (h.sum_entries_lt hsum side)
  have hq : s.state.total side = .ok q := hq
  simp only [serve, ends_bind, ends_current, ends_ofExcept, hq]
  exact ⟨rfl, q, rfl, rfl⟩

/-- A moderate call is answered, and keeps depth on its track. -/
theorem ends_serve (h : Tracks calls s.state) (hsum : SumsBelow (2 ^ 64) (calls ++ [c]))
    (hmod : Moderate calls c) :
    Ends (serve c) s (fun _ t => Tracks (calls ++ [c]) t.state) (fun _ _ => False) := by
  cases c with
  | report r =>
    rw [serve, ends_bind]
    cases r with
    | add isMarket side p q => exact ends_receive_add h hsum hmod
    | close isMarket side p q => exact ends_receive_close h hmod
    | trade tick =>
      refine (ends_addTrade .ask .market).imp fun _ t ht => h.of_moved rfl ht.1 fun s r => ?_
      rw [ite_self, add_zero]
      exact congrArg _ (level_concat ..)
  | takeUpdate =>
    refine ⟨fun s' r => ?_, fun s' r => ?_⟩
    · rw [level_concat]
      cases s' with
      | ask => exact h.held .ask r
      | bid => exact h.held .bid r
    · rw [pending_concat_update rfl]
      cases s' <;> rfl
  | quantityAt side p => exact h.asked rfl fun _ _ => level_concat ..
  | total side =>
    refine (ends_total h (hsum.before (List.prefix_append _ _)) side).imp ?_
    rintro _ _ ⟨rfl, -⟩
    exact h.asked rfl fun _ _ => level_concat ..

/-- Moderate calls are exact. -/
theorem exact_of_moderate (hsum : SumsBelow (2 ^ 64) calls)
    (hmod : ∀ pre c, pre ++ [c] <+: calls → Moderate pre c) : Exact i history calls :=
  .inTurn (tracks_opening i history) fun pre c _ _ hpre _ ht =>
    ends_serve ht (hsum.before hpre) (hmod pre c hpre)

/-- A difference of 64 bits with a sign fits in them. -/
theorem fits_change (d : MarketDepth) (side : Side) (p : Price) : Delta.Fits (d.change side p) :=
  ⟨Int64.le_toInt _, Int64.toInt_lt _⟩

/-- A call that keeps depth on its track is moderate: what it records has 64 bits and a sign. -/
theorem moderate_of_tracks (h : Tracks calls s.state) :
    Ends (serve c) s (fun _ t => Tracks (calls ++ [c]) t.state → Moderate calls c)
      (fun _ _ => True) := by
  have hpending : ∀ {t : MarketDepth}, Tracks (calls ++ [c]) t →
      ∀ s p, Delta.Fits (pending (calls ++ [c]) s p) := fun ht s p =>
      ht.change s p ▸ fits_change ..
  have hstill : (∀ s p, level (calls ++ [c]) s p = level calls s p) →
      ∀ s p, level (calls ++ [c]) s p < level calls s p + 2 ^ 63 ∧
        level calls s p < level (calls ++ [c]) s p + 2 ^ 63 := fun hl s p => by
    rw [hl]
    omega
  cases c with
  | report r =>
    rw [serve, ends_bind]
    cases r with
    | add isMarket side p q =>
      refine records_addOrder.imp fun _ t ht htracks => ⟨fun s r => ?_, hpending htracks⟩
      have hrecorded := ht s r
      rw [htracks.change, h.change, pending_concat rfl] at hrecorded
      have hsigned := q.signed.toInt_lt
      have hle : level calls s r ≤ level (calls ++ [.report (.add isMarket side p q)]) s r := by
        rw [level_concat, DepthCall.level]
        split <;> omega
      split at hrecorded <;> omega
    | close isMarket side p q =>
      refine records_closeOrder.imp fun _ t ht htracks => ⟨fun s' r => ?_, hpending htracks⟩
      have hrecorded := ht s' r
      rw [htracks.change, h.change, pending_concat rfl] at hrecorded
      have hsigned := (min q (s.state.quantityAt side p)).signed.toInt_lt
      have hle :
          level (calls ++ [.report (.close isMarket side p q)]) s' r ≤ level calls s' r := by
        rw [level_concat, DepthCall.level]
        split <;> omega
      split at hrecorded <;> omega
    | trade tick => exact fun ht => ⟨hstill fun _ _ => level_concat .., hpending ht⟩
  | takeUpdate | quantityAt _ _ =>
    exact fun ht => ⟨hstill fun _ _ => level_concat .., hpending ht⟩
  | total side =>
    exact (Ends.any _ _).imp fun _ _ _ ht => ⟨hstill fun _ _ => level_concat .., hpending ht⟩

/-- Calls that never bring a level to 2⁶³ are moderate. -/
theorem moderate_of_level_lt (h : ∀ pre, pre <+: calls → ∀ s p, level pre s p < 2 ^ 63)
    {pre : List DepthCall} (hpre : pre ++ [c] <+: calls) : Moderate pre c := by
  have hbefore := h pre ((List.prefix_append _ _).trans hpre)
  have hafter := h (pre ++ [c]) hpre
  refine ⟨fun s p => ?_, fun s p => ?_⟩
  · have := hbefore s p
    have := hafter s p
    omega
  · have hlast := h (untilUpdate (pre ++ [c])) ((List.rdropWhile_prefix _ _).trans hpre) s p
    have := hafter s p
    unfold pending Delta.Fits
    omega

/-- As long as the levels of each side fit in 64 bits together, the calls are exact just in case
each of them is moderate; so they are if no single level ever reaches 2⁶³. -/
theorem exact_iff_moderate (i : InstrumentId) (history : Nat) (calls : List DepthCall)
    (hsum : SumsBelow (2 ^ 64) calls) :
    ((∀ pre, pre <+: calls → Exact i history pre) ↔
      ∀ pre c, pre ++ [c] <+: calls → Moderate pre c) ∧
    ((∀ pre, pre <+: calls → ∀ s p, level pre s p < 2 ^ 63) →
      ∀ pre, pre <+: calls → Exact i history pre) := by
  have hexact : (∀ pre c, pre ++ [c] <+: calls → Moderate pre c) →
      ∀ pre, pre <+: calls → Exact i history pre := fun hmod pre hpre =>
    exact_of_moderate (hsum.before hpre) fun pre' c h => hmod pre' c (h.trans hpre)
  refine ⟨⟨fun h pre c hpre => ?_, hexact⟩, fun hlt => hexact fun _ _ => moderate_of_level_lt hlt⟩
  -- where the calls before it lead, the call records what it moves
  have hnext := h (pre ++ [c]) hpre
  unfold Exact at hnext
  rw [ends_inTurn_concat] at hnext
  obtain ⟨_, t, heq, htracks⟩ := (h pre ((List.prefix_append _ _).trans hpre)).exists_ok
  obtain ⟨_, u, hserved, hafter⟩ := (hnext.answered heq).exists_ok
  exact (moderate_of_tracks htracks).answered hserved hafter

/-- A close that overruns its level keeps exact what is exact, and so does one of a level that is
gone. -/
theorem exact_overrun :
    let calls : List DepthCall := [.report (.add false .ask (.ofUInt64 10) ⟨5⟩),
      .report (.close false .ask (.ofUInt64 10) ⟨7⟩), .takeUpdate,
      .report (.close false .ask (.ofUInt64 10) ⟨1⟩), .total .ask]
    SumsBelow (2 ^ 64) calls ∧ ∀ pre, pre <+: calls → Exact ⟨1⟩ 10 pre := by
  intro calls
  have hsum : SumsBelow (2 ^ 64) calls := sumsBelow_of_added (by decide)
  have hlow : SumsBelow (2 ^ 63) calls := sumsBelow_of_added (by decide)
  exact ⟨hsum, (exact_iff_moderate ⟨1⟩ 10 calls hsum).2 fun _ hpre => hlow.level_lt hpre⟩

/-- Orders of 2⁶³ together fit in a level, yet adding them in one records a difference of the wrong
sign, and closing them breaks off. -/
theorem halfRange_breaks_off :
    let p : Price := .ofUInt64 10
    let add : DepthCall := .report (.add false .ask p ⟨9223372036854775808⟩)
    let close : DepthCall := .report (.close false .ask p ⟨9223372036854775808⟩)
    SumsBelow (2 ^ 64) [add, close] ∧
    (∃ answers t, inTurn serve [add] (opening ⟨1⟩ 10) = .ok answers t ∧
      t.state.held .ask p = 2 ^ 63 ∧ t.state.change .ask p = -2 ^ 63) ∧
    ∃ t, inTurn serve [add, close] (opening ⟨1⟩ 10) = .error .negationOverflow t := by
  exact ⟨sumsBelow_of_added (by decide), ⟨_, _, rfl, by decide +kernel, by decide +kernel⟩, _, rfl⟩

end MarketDepth

end Bourse
