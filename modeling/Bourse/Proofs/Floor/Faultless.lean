import Bourse.Proofs.Clean.Lifecycle

/-!
# Runs without faults

The code guards against what should never happen: a match step that makes no progress, a finished
order that is not on top of its queue, a trade larger than what is shown, a depth level that holds
less than is taken off it, arithmetic that overflows. With simulated settlement none of these
happens, whichever orders are cancelled and however that races with settlement (`Floor.faultless`).

A cancellation has two halves: settlement closes the order, and the book takes its depth away. Both
may come between two moves. While the book waits for settlement, `Racing` lets the one come in and
`Others` the other.
-/

namespace Bourse

open Bourse.Action Desk

variable {σ α : Type} {S : Settlement σ} {others : Others σ} {os : Orders}
  {rs came : List OrderRef}

namespace Floor

variable {i : Instrument} {history buffer : Nat} {b : σ} {f : Floor σ}

/-! ## Others -/

/-- Carries out a move. Others come in while the book waits for settlement. -/
def applyAmid (S : Settlement σ) (others : Others σ) (f : Floor σ) : Move σ → Floor σ
  | .start =>
    f.perform (Amid.start S others) (fun report g => g.afterStart f.waiting report.result)
      fun report => report.result.isBroken
  | .submit side r =>
    f.perform (Amid.submit S others side r) (fun answer g => g.submitted r answer) fun _ => false
  | m => f.apply S m

/-- Carries out moves, the first first. Others come in while the book waits for settlement. -/
def runAmid (S : Settlement σ) (others : Others σ) (f : Floor σ) (moves : List (Move σ)) :
    Floor σ :=
  moves.foldl (applyAmid S others) f

/-- Where nobody comes in a move is carried out as always. -/
theorem applyAmid_nobody (f : Floor σ) (m : Move σ) :
    f.applyAmid S (.nobody σ) m = f.apply S m := by
  cases m with
  | start => rw [applyAmid, Amid.start_nobody, apply]
  | submit side r => rw [applyAmid, Amid.submit_nobody, apply]
  | load | loadTrades | cancel | withdraw | abandon | shutdown | backend => rfl

/-- Where nobody comes in moves are carried out as always. -/
theorem runAmid_nobody (f : Floor σ) (moves : List (Move σ)) :
    f.runAmid S (.nobody σ) moves = f.run S moves := by
  unfold runAmid run
  congr
  exact funext₂ applyAmid_nobody

/-! ## No fault -/

/-- Nothing broke off so far, no error is in the journal, and the book goes on. -/
structure Clean (os : Orders) (rs came : List OrderRef) (f : Floor σ) : Prop where
  working : Working os rs came f.register.accepted f.desk
  intact : f.intact = true

/-- A call that does not break off leaves the floor clean. -/
theorem clean_perform {act : Action (Desk σ) α} {note : α → Register → Register}
    {broken : α → Bool} (hintact : f.intact = true)
    (hends : Ends act f.desk (fun a t => broken a = false ∧
      Working os rs came (note a f.register).accepted t) (fun _ _ => False)) :
    Clean os rs came (f.perform act note broken) := by
  refine perform_of_ends (R := Clean os rs came) hends ?_ fun _ _ hf => hf.elim
  rintro a t ⟨hbroken, ht⟩
  refine ⟨ht, ?_⟩
  show (f.intact && !broken a && !t.state.book.phase.isCrashed) = true
  rw [hintact, hbroken, ht.phase]
  rfl

/-- A call whose answer never says that something broke off. -/
theorem clean_perform_sure {act : Action (Desk σ) α} {note : α → Register → Register}
    (hintact : f.intact = true)
    (hends : Ends act f.desk (fun a t => Working os rs came (note a f.register).accepted t)
      (fun _ _ => False)) : Clean os rs came (f.perform act note fun _ => false) :=
  clean_perform hintact (hends.imp (fun _ _ ht => ⟨rfl, ht⟩))

/-- A move meets no fault. -/
theorem clean_apply (hS : S.Careful) (ho : Orderly os rs) (hcame : ∀ r ∈ came, r ∈ rs)
    (h : Clean os rs came f) (m : Move σ) (hnew : ∀ r, m.brings? = some r → r ∈ rs ∧ r ∉ came) :
    Clean os rs (m.brings?.toList ++ came) (f.applyAmid S others m) := by
  have hw := h.working
  unfold applyAmid apply
  cases m with
  | load side r =>
    exact clean_perform_sure h.intact (clean_load ho hw (hnew r rfl).1 (hnew r rfl).2)
  | loadTrades trades => exact clean_perform_sure h.intact (clean_loadTrades trades hw)
  | start => exact clean_perform h.intact (clean_start hS ho hcame hw)
  | submit side r =>
    exact clean_perform_sure h.intact (clean_submit hS ho hw (hnew r rfl).1 (hnew r rfl).2)
  | cancel r =>
    refine clean_perform_sure h.intact ((clean_cancel hw).imp (fun answer t ht => ?_))
    cases answer
    · exact ht
    · exact (Register.accepted_cancel ..).symm ▸ ht
  | withdraw side r =>
    refine clean_perform_sure h.intact ((clean_withdraw ho hw).imp (fun answer t ht => ?_))
    cases answer
    · exact ht
    · exact (Register.accepted_withdraw ..).symm ▸ ht
  | abandon => exact clean_perform_sure h.intact (clean_abandon hw)
  | shutdown => exact clean_perform_sure h.intact (clean_shutdown hw)
  | backend g => exact clean_perform_sure h.intact (clean_backend g hw)

/-- With careful settlement no move of a run meets a fault, whoever comes in. -/
theorem clean_run (hS : S.Careful) (ho : Orderly os rs) (moves : List (Move σ))
    (hnodup : (brought moves).Nodup) (hknown : ∀ r ∈ brought moves, r ∈ rs) :
    Clean os rs (brought moves).reverse
      ((opening i history buffer os b).runAmid S others moves) := by
  induction moves using List.reverseRecOn with
  | nil =>
    have hspotless : Spotless #[] := fun e he => absurd he (Array.not_mem_empty e)
    exact ⟨⟨⟨sound_new .., ⟨[], .fresh os rs rfl rfl i.id history⟩, hspotless⟩, rfl,
      nofun, nofun, .nil⟩, rfl⟩
  | append_singleton moves m ih =>
    have hknown' : ∀ r ∈ brought moves, r ∈ rs := fun r hr =>
      hknown r (brought_append .. ▸ List.mem_append_left _ hr)
    have hstep : ((opening i history buffer os b).runAmid S others (moves ++ [m])) =
        ((opening i history buffer os b).runAmid S others moves).applyAmid S others m :=
      List.foldl_append
    rw [hstep, reverse_brought_append]
    refine clean_apply hS ho (fun r hr => hknown' r (List.mem_reverse.1 hr))
      (ih (nodup_brought_of_append hnodup) hknown') m fun r hm => ⟨hknown r ?_, fun hmem => ?_⟩
    · exact List.mem_filterMap.2 ⟨m, List.mem_append_right _ List.mem_cons_self, hm⟩
    · exact notMem_brought_of_append hnodup hm (List.mem_reverse.1 hmem)

/-- Nothing broke off, and no error is in the journal. -/
structure Faultless (f : Floor σ) : Prop where
  intact : f.intact = true
  spotless : ∀ e ∈ f.desk.journal, e.severity ≠ .error

/-- What is clean has met no fault. -/
theorem Clean.meets_no_fault (h : Clean os rs came f) : f.Faultless :=
  ⟨h.intact, h.working.inOrder.ledger.spotless⟩

/-- A fresh book with simulated settlement meets no fault, if each order is brought to it once,
with a number of its own and together fewer than 2⁶³ shares. That is so whichever orders are
cancelled: by settlement or by the book between any two moves, and by settlement also before and
after each of its calls, when the book has chosen a pair that was open. No call breaks off, so
nothing overflows and no order is filled with more than it has left. No error is in the journal:
every match step makes progress, what is finished is on top of its queue, no trade exceeds what is
shown and no level of market depth underflows. The same holds when also others have the book
withdraw orders, any they like, before and after each call of settlement. -/
theorem faultless (i : Instrument) (history buffer : Nat) (os : Orders) (b : Racing)
    (moves : List (Move Racing)) (ho : Orderly os (brought moves)) :
    ((opening i history buffer os b).run Racing.settlement moves).Faultless ∧
      ∀ others : Others Racing,
        ((opening i history buffer os b).runAmid Racing.settlement others moves).Faultless := by
  have hamid : ∀ others : Others Racing,
      ((opening i history buffer os b).runAmid Racing.settlement others moves).Faultless :=
    fun _ => (clean_run Racing.careful ho moves (ho.ids.of_map _) fun _ hr => hr).meets_no_fault
  exact ⟨runAmid_nobody (S := Racing.settlement) .. ▸ hamid (.nobody _), hamid⟩

/-- In the book of `ownCross` the bid of the first user meets the ask of the second, which is
cancelled before they are settled: nothing is traded, and the bid rests. Where others come in, they
have the book withdraw the ask before the pair is settled and after. -/
theorem faultless_of_ownCross :
    let moves : List (Move Racing) := [.load .ask ⟨0⟩, .start, .submit .ask ⟨1⟩, .submit .bid ⟨2⟩]
    let others : Others Racing := fun _ => [(.ask, ⟨1⟩)]
    let f : Floor Racing := opening ⟨⟨0⟩, .ofUInt64 90⟩ 10 10 Session.ownCross ⟨.empty, [[⟨1⟩]]⟩
    let g := f.run Racing.settlement moves
    let h := f.runAmid Racing.settlement others moves
    (Orderly Session.ownCross (brought moves) ∧ g.state.office.backend.plan = [] ∧
      (g.state.order ⟨1⟩).closed = true ∧ (g.state.order ⟨2⟩).unfulfilled = ⟨7⟩ ∧
      h.desk.journal.toList.count (.orderWithdrawn ⟨0⟩ ⟨2⟩ .ask) = 2) ∧
    g.Faultless ∧ ∀ others : Others Racing,
      (f.runAmid Racing.settlement others moves).Faultless := by
  intro moves others f g h
  have ho : Orderly Session.ownCross (brought moves) := ⟨by decide, by decide⟩
  refine ⟨⟨ho, by decide +kernel, by decide +kernel, by decide +kernel, by decide +kernel⟩, ?_⟩
  exact faultless _ _ _ _ _ moves ho

end Floor

end Bourse
