/-
The ledger as the store keeps it: where every call on the path is a ledger operation, the document
is the one of a sequential run of the operations that took effect.
-/
import Aibot.Risk.History
import Aibot.Store.Linear

namespace Aibot.Risk

open Aibot.Store

/-- The `update_json` call of an operation. -/
def Op.request (op : Op) : Request Ledger LedgerError Ret := .update emptyLedger none op.mutate

/-- What an operation leaves of the stored ledger, with or without a file. -/
theorem effect_request (op : Op) (hw : op.writes = true) (stored : Option Ledger) :
    (op.request.effect stored).getD emptyLedger = (op.run (stored.getD emptyLedger)).2 := by
  unfold Op.request Request.effect Op.run
  rw [if_pos hw]
  simp only [Request.compute, Request.fallback]
  cases hu : updateJson op.mutate none (stored.getD emptyLedger) with
  | ok x => rfl
  | error e => cases e <;> rfl

theorem replay_requests : ∀ (ops : List Op) (stored : Option Ledger), (∀ op ∈ ops, op.writes = true) →
    (replay stored (ops.map Op.request)).getD emptyLedger =
      ops.foldl (fun ledger op => (op.run ledger).2) (stored.getD emptyLedger)
  | [], _, _ => rfl
  | op :: ops, stored, hw => by
    have h := replay_requests ops (op.request.effect stored) fun op' h => hw op' (List.mem_cons_of_mem _ h)
    rw [effect_request op (hw op List.mem_cons_self)] at h
    exact h

/-- Operations that draw distinct ids can be run one after the other. -/
theorem exists_world : ∀ (ops : List Op) (w : World),
    (w.ids ++ ops.flatMap fun op => op.freshId.toList).Nodup →
      ∃ w', Run World.step Run.anyStep w ops w' ∧
        w'.ledger = ops.foldl (fun ledger op => (op.run ledger).2) w.ledger
  | [], w, _ => ⟨w, .nil w, rfl⟩
  | op :: ops, w, h => by
    rw [List.flatMap_cons, ← List.append_assoc] at h
    obtain ⟨w', hrun, hledger⟩ := exists_world ops (w.after op) h
    have hstep : w.step op = some (w.after op) := by
      unfold World.step
      refine if_pos fun id hid hmem => ?_
      have hdisjoint := (List.nodup_append.1 (List.nodup_append.1 h).1).2.2
      exact hdisjoint id hmem id (Option.mem_toList.2 hid) rfl
    exact ⟨w', .cons trivial hstep hrun, hledger⟩

/-- The file holds the ledger of a run of the operations that took effect, in the order in which
they took the lock. -/
theorem stored_world {χ : Type*} [Codec Ledger χ] {acts : List (StoreAct Ledger LedgerError Ret)}
    {s : System Ledger χ LedgerError Ret} (h : Run System.step Run.anyStep (System.start none) acts s)
    {ops : List Op} (hops : s.requests = ops.map Op.request) (hw : ∀ op ∈ ops, op.writes = true)
    (hids : (ops.flatMap fun op => op.freshId.toList).Nodup) :
    ∃ w, Run World.step Run.anyStep World.start ops w ∧
      ∀ i, s.files.path = some i → Codec.load (s.files.data i) = some w.ledger := by
  obtain ⟨w, hrun, hledger⟩ := exists_world ops World.start hids
  refine ⟨w, hrun, fun i hi => ?_⟩
  have hs : StoreInv none s := storeInv_run rfl h
  have hcontent := hs.content
  rw [hi, Option.map_some] at hcontent
  obtain ⟨ledger, hstored, hload⟩ := Option.map_eq_some_iff.1 hcontent.symm
  have hreplay := replay_requests ops none hw
  rw [← hops, show replay none s.requests = some ledger from hstored] at hreplay
  have hw' : ledger = w.ledger := hreplay.trans hledger.symm
  rw [← hload, hw']

end Aibot.Risk
