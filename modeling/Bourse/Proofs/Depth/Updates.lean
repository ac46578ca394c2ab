import Bourse.Proofs.Depth.Calls
import Mathlib.Algebra.Order.BigOperators.Group.List

/-!
# What subscribers see

A subscriber follows market depth by the updates that are taken. An update names by how much each
level changed since the last one (`DepthUpdate.changeAt`), so the sum of all of them is the depth
at the last (`Fed.summed`), and the next leads from there to the depth of now.

As long as the levels of each side stay below 2⁶³ together this holds whatever is called
(`MarketDepth.updates_rebuild_snapshots`), and the full view is in order: no level of it is empty,
and the single questions are answered from it.
-/

namespace Bourse

namespace DepthUpdate

/-- The differences of a side. -/
def diff (u : DepthUpdate) : Side → PriceMap Int64
  | .ask => u.askDiff
  | .bid => u.bidDiff

/-- By how much the quantity at a price changed, zero if nothing is said of it. -/
def changeAt (u : DepthUpdate) (s : Side) (p : Price) : Int := (((u.diff s).find? p).getD 0).toInt

end DepthUpdate

/-- The update that an answer gives. -/
def DepthAnswer.update? : DepthAnswer → Option DepthUpdate
  | update u => some u
  | done | quantity _ => none

/-- The levels that the view shows of a side, the best first. -/
def DepthSnapshot.side (v : DepthSnapshot) : Side → List (Price × Quantity)
  | .ask => v.asks
  | .bid => v.bids

namespace MarketDepth

open Bourse.Action

variable {s : Logged MarketDepth} {calls : List DepthCall} {c : DepthCall} {side : Side}
  {answers : List DepthAnswer}

/-- What was returned is what changed up to the last update, and what is kept back is what changed
since. -/
structure Fed (calls : List DepthCall) (answers : List DepthAnswer) (d : MarketDepth) : Prop where
  tracks : Tracks calls d
  proper : d.Proper
  summed : ∀ s p, ((answers.filterMap DepthAnswer.update?).map (·.changeAt s p)).sum =
    level (untilUpdate calls) s p
  fresh : d.fresh.toList = (sinceUpdate calls).filterMap DepthCall.trade?

/-- An update tells the differences. -/
theorem changeAt_takeUpdate (d : MarketDepth) (side : Side) (p : Price) :
    d.takeUpdate.1.changeAt side p = d.change side p := by cases side <;> rfl

@[simp] theorem fresh_withLevels (d : MarketDepth) (l : Levels) (side : Side) :
    (d.withLevels l side).fresh = d.fresh := by cases side <;> rfl

/-- Taking an update leaves market depth proper. -/
theorem proper_takeUpdate {d : MarketDepth} (h : d.Proper) : d.takeUpdate.2.Proper := by
  intro side
  cases side with
  | ask => exact ⟨(h .ask).positive, nofun⟩
  | bid => exact ⟨(h .bid).positive, nofun⟩

/-- Calls leave no entries of zero. -/
theorem proper_serve (h : s.state.Proper) (c : DepthCall) :
    Ends (serve c) s (fun _ t => t.state.Proper) (fun _ _ => True) := by
  cases c with
  | report r =>
    rw [serve, ends_bind]
    exact proper_receive h r
  | takeUpdate => exact proper_takeUpdate h
  | quantityAt _ _ => exact h
  | total side =>
    simp only [serve, ends_bind, ends_current, ends_ofExcept]
    split
    · exact h
    · trivial

/-- Only trades are kept for the next update besides what the levels record. -/
theorem fresh_receive (r : Report) :
    Ends (receive r) s
      (fun _ t => t.state.fresh.toList =
        s.state.fresh.toList ++ (DepthCall.trade? (.report r)).toList)
      (fun _ _ => True) := by
  cases r with
  | add isMarket side p q =>
    refine ends_addOrder_iff.2 ?_
    split
    · exact (List.append_nil _).symm
    · exact (Ends.any _ _).imp fun _ _ _ => by simp [DepthCall.trade?]
  | close isMarket side p q =>
    refine ends_closeOrder_iff.2 ?_
    split
    · exact (List.append_nil _).symm
    · exact (Ends.any _ _).imp fun _ _ _ => by simp [DepthCall.trade?]
  | trade tick => exact Array.toList_push

/-- A call that takes an update answers with it, and then no trade is kept. Others answer with
none. -/
theorem ends_serve_told (c : DepthCall) :
    Ends (serve c) s
      (fun a t => a.update? = (if c.isUpdate then some s.state.takeUpdate.1 else none) ∧
        t.state.fresh.toList =
          if c.isUpdate then [] else s.state.fresh.toList ++ c.trade?.toList)
      (fun _ _ => True) := by
  cases c with
  | report r =>
    rw [serve, ends_bind]
    exact (fresh_receive r).imp fun _ _ h => ⟨rfl, h⟩
  | takeUpdate => exact ⟨rfl, rfl⟩
  | quantityAt _ _ => exact ⟨rfl, (List.append_nil _).symm⟩
  | total side =>
    simp only [serve, ends_bind, ends_current, ends_ofExcept]
    split
    · exact ⟨rfl, (List.append_nil _).symm⟩
    · trivial

/-- A call that is moderate keeps what was returned and what is kept back apart. -/
theorem fed_serve (h : Fed calls answers s.state) (hsum : SumsBelow (2 ^ 64) (calls ++ [c]))
    (hmod : Moderate calls c) :
    Ends (serve c) s (fun a t => Fed (calls ++ [c]) (answers ++ [a]) t.state)
      (fun _ _ => False) := by
  have hends := ((ends_serve h.tracks hsum hmod).and (proper_serve h.proper c)).and
    (ends_serve_told c)
  refine hends.mono ?_ fun _ _ hf => hf.1.1
  rintro a t ⟨⟨htracks, hproper⟩, hanswer, hfresh⟩
  refine ⟨htracks, hproper, fun side p => ?_, ?_⟩
  · rw [List.filterMap_append, List.map_append, List.sum_append, h.summed, untilUpdate_concat]
    cases hc : c.isUpdate with
    | true =>
      -- the update is by how much the level changed since the last one
      have hlevel : level (calls ++ [c]) side p = level calls side p := by
        cases c with
        | takeUpdate => exact level_concat ..
        | report _ | quantityAt _ _ | total _ => cases hc
      have hchange := h.tracks.change side p
      unfold pending at hchange
      rw [hc, if_pos rfl] at hanswer
      simp only [List.filterMap_cons, hanswer, List.filterMap_nil, List.map_cons, List.map_nil,
        List.sum_cons, List.sum_nil, changeAt_takeUpdate, if_true]
      omega
    | false =>
      rw [hc, if_neg Bool.false_ne_true] at hanswer
      simp [hanswer]
  · rw [hfresh, h.fresh, sinceUpdate_concat]
    cases hc : c.isUpdate with
    | true => rfl
    | false => cases htrade : c.trade? <;> simp [htrade]

/-- Calls that keep the levels of each side below 2⁶³ together are answered, and feed market
depth. -/
theorem fed_run (i : InstrumentId) (history : Nat) (h : SumsBelow (2 ^ 63) calls) :
    Ends (inTurn serve calls) (opening i history) (fun answers t => Fed calls answers t.state)
      (fun _ _ => False) := by
  have hproper : (opening i history).state.Proper := fun side => by
    cases side <;> exact Levels.proper_empty
  refine Ends.inTurn (P := fun calls answers t => Fed calls answers t.state)
    ⟨tracks_opening i history, hproper, fun _ _ => rfl, rfl⟩ fun pre c _ _ hpre _ ht => ?_
  exact fed_serve ht ((h.mono (by decide)).before hpre)
    (moderate_of_level_lt (fun _ hpre => h.level_lt hpre) hpre)

/-- The full view is in order, and the single questions are answered from it. -/
structure InOrder (d : MarketDepth) : Prop where
  asks : d.snapshot.asks.Pairwise fun a b => a.1 < b.1
  bids : d.snapshot.bids.Pairwise fun a b => b.1 < a.1
  positive : ∀ s, ∀ e ∈ d.snapshot.side s, 0 < e.2.toNat
  bestAsk : d.bestAsk? = d.snapshot.asks.head?.map (·.1)
  bestBid : d.bestBid? = d.snapshot.bids.head?.map (·.1)
  total : ∀ s, ∃ q, d.total s = .ok q ∧ q.toNat = ((d.snapshot.side s).map (·.2.toNat)).sum
  quantityAt : ∀ s p, (∀ e ∈ d.snapshot.side s, e.1.Same p → d.quantityAt s p = e.2) ∧
    ((∀ e ∈ d.snapshot.side s, ¬ e.1.Same p) → d.quantityAt s p = .zero)

/-- The view of a side lists the entries of its levels. -/
theorem side_snapshot_perm (d : MarketDepth) (side : Side) :
    (d.snapshot.side side).Perm (d.levels side).depth.entries := by
  cases side with
  | ask => exact .refl _
  | bid => exact List.reverse_perm _

/-- Proper market depth of which the totals fit is in order. -/
theorem Proper.inOrder {d : MarketDepth} (h : d.Proper)
    (hsum : ∀ s, ((d.levels s).depth.entries.map (·.2.toNat)).sum < 2 ^ 64) : d.InOrder := by
  have hmem {side : Side} {e : Price × Quantity} :
      e ∈ d.snapshot.side side ↔ e ∈ (d.levels side).depth.entries :=
    (side_snapshot_perm d side).mem_iff
  refine ⟨d.asks.depth.ascending, List.pairwise_reverse.2 d.bids.depth.ascending,
    fun side e he => (h side).positive e.1 e.2 (PriceMap.find?_of_mem (hmem.1 he) rfl), rfl,
    congrArg _ List.head?_reverse.symm, fun side => ?_, fun side p =>
    ⟨fun e he hp => ?_, fun hp => ?_⟩⟩
  · obtain ⟨q, hq, hn⟩ := Levels.total_eq (hsum side)
    exact ⟨q, hq, hn.trans ((side_snapshot_perm d side).map _).sum_eq.symm⟩
  · exact congrArg (·.getD .zero) (PriceMap.find?_of_mem (hmem.1 he) hp)
  · have hnone : (d.levels side).depth.find? p = none := by
      cases hfind : (d.levels side).depth.find? p with
      | none => rfl
      | some v =>
        obtain ⟨e, he, hsame, -⟩ := PriceMap.mem_of_find? hfind
        exact absurd hsame (hp e (hmem.2 he))
    exact congrArg (·.getD .zero) hnone

/-- What market depth shows after calls, and what its updates made of it: `last` is depth at the
last update, or at the start. -/
structure Shows (calls : List DepthCall) (answers : List DepthAnswer) (last d : MarketDepth) :
    Prop where
  /-- The levels are what the calls add up to. -/
  held : ∀ s p, (d.quantityAt s p).toNat = level calls s p
  /-- All updates that were returned add up to the levels at the last of them. -/
  summed : ∀ s p, ((answers.filterMap DepthAnswer.update?).map (·.changeAt s p)).sum =
    (last.quantityAt s p).toNat
  /-- The next update leads from these to the levels of now. -/
  next : ∀ s p, ((last.quantityAt s p).toNat : Int) + d.takeUpdate.1.changeAt s p =
    (d.quantityAt s p).toNat
  nonzero : ∀ s, ∀ e ∈ (d.takeUpdate.1.diff s).entries, e.2 ≠ 0
  /-- The next update has the trades since the last one, the oldest first. -/
  trades : d.takeUpdate.1.trades = (sinceUpdate calls).filterMap DepthCall.trade?
  inOrder : d.InOrder

/-- Whatever calls come, as long as they keep the levels of each side below 2⁶³ together: they are
answered, and a subscriber who adds up the updates holds the levels that the full view showed when
the last was taken. -/
theorem updates_rebuild_snapshots (i : InstrumentId) (history : Nat) (calls : List DepthCall)
    (h : SumsBelow (2 ^ 63) calls) :
    ∃ before last answers now,
      inTurn serve (untilUpdate calls) (opening i history) = .ok before last ∧
      inTurn serve calls (opening i history) = .ok answers now ∧
      inTurn serve (calls ++ [.takeUpdate]) (opening i history) =
        .ok (answers ++ [.update now.state.takeUpdate.1]) ⟨now.state.takeUpdate.2, now.journal⟩ ∧
      Shows calls answers last.state now.state := by
  obtain ⟨before, last, hlast, hthen⟩ :=
    (fed_run i history (h.before (List.rdropWhile_prefix _ _))).exists_ok
  obtain ⟨answers, now, hnow, hfed⟩ := (fed_run i history h).exists_ok
  have hheld : ∀ s p, (last.state.quantityAt s p).toNat = level (untilUpdate calls) s p :=
    hthen.tracks.held
  have hdepth : ∀ s p, (now.state.quantityAt s p).toNat = level calls s p := hfed.tracks.held
  refine ⟨before, last, answers, now, hlast, hnow, ?_, hdepth, fun side p => ?_, fun side p => ?_,
    fun side e he => ?_, hfed.fresh, ?_⟩
  · refine ends_eq_ok.1 (ends_inTurn_concat.2 (.of_ok hnow ?_))
    exact ⟨rfl, rfl⟩
  · rw [hfed.summed, hheld]
  · rw [hheld, hdepth, changeAt_takeUpdate, hfed.tracks.change]
    unfold pending
    omega
  · have hfind := PriceMap.find?_of_mem he rfl
    cases side with
    | ask => exact (hfed.proper .ask).nonzero e.1 e.2 hfind
    | bid => exact (hfed.proper .bid).nonzero e.1 e.2 hfind
  · exact hfed.proper.inOrder fun side => (hfed.tracks.sum_entries_lt h side).trans (by decide)

/-- A level is dropped by a close that overruns it, comes back, and is told of in two updates. -/
theorem updates_of_overrun :
    let p : Price := .ofUInt64 10
    let calls : List DepthCall := [.report (.add false .ask p ⟨5⟩), .takeUpdate,
      .report (.close false .ask p ⟨7⟩), .report (.trade ⟨p, ⟨5⟩, ⟨1⟩⟩), .takeUpdate,
      .report (.add false .ask p ⟨3⟩), .total .ask]
    SumsBelow (2 ^ 63) calls ∧ ∃ answers last now,
      inTurn serve calls (opening ⟨1⟩ 10) = .ok answers now ∧
      Shows calls answers last now.state := by
  intro p calls
  have h : SumsBelow (2 ^ 63) calls := sumsBelow_of_added (by decide)
  obtain ⟨_, last, answers, now, _, hnow, _, hshows⟩ := updates_rebuild_snapshots ⟨1⟩ 10 calls h
  exact ⟨h, answers, last.state, now, hnow, hshows⟩

end MarketDepth

end Bourse
