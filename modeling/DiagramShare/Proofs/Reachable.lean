import DiagramShare.Proofs.Calls
import DiagramShare.Proofs.Run
import DiagramShare.Service.Operation

/-! States of the store in memory that the service can bring about. -/
namespace DiagramShare.Service

open DiagramShare.Repository (Memory)

/-- What requests lead to from an empty store, whoever makes them and whatever they meet. Between
requests, the writing of versions may begin to fail or work again. -/
inductive Reachable : Memory → Prop where
  | empty : Reachable .empty
  | served {w : World Memory} (before : Reachable w.store) (c : Conditions) (caller : Caller)
      (op : Operation) : Reachable ((serve caller op).run inMemory c w).1.store
  | failing {m : Memory} (before : Reachable m) (fail : Bool) :
      Reachable { m with failVersions := fail }

variable {c : Conditions} {w w' : World Memory} {m : Memory}

theorem ask_numbered (call : Repository.Call β) (numbered : w.store.Numbered) :
    (w.ask inMemory c call).1.store.Numbered := by
  unfold World.ask
  split
  · exact numbered
  · exact Memory.answer_numbered numbered call _

theorem ends_numbered {p : Program α} {r : Except Access.Failure α}
    (h : p.Ends inMemory c w w' r) (numbered : w.store.Numbered) : w'.store.Numbered :=
  ends_closed (R := fun w w' => w.store.Numbered → w'.store.Numbered) (fun first rest n =>
    rest (first n)) (fun call _ => ask_numbered call) (fun same _ n => same ▸ n) h numbered

theorem Reachable.numbered (reached : Reachable m) : m.Numbered := by
  induction reached with
  | empty => exact Repository.numbered_empty
  | served _ c caller op ih => exact ends_numbered (ends_run _ _) ih
  | failing _ fail ih => exact ⟨ih.distinct, ih.inRange⟩

def steady : Conditions where
  clock := fun n => .ofSeconds n
  token := fun n => String.ofList (List.replicate (n + 1) 'a')
  staging := fun n => n
  outage := fun _ => none

def World.after (w : World Memory) (caller : Caller) (op : Operation) : World Memory :=
  ((serve caller op).run inMemory steady w).1

theorem Reachable.after (reached : Reachable w.store) (caller : Caller) (op : Operation) :
    Reachable (w.after caller op).store := .served reached steady caller op

/-- User 1 has a workspace, a document in it and a share of the document that is open to whoever
presents the token. -/
def sample : World Memory :=
  (((World.start Memory.empty (Storage.Backend.opened {} "root").1).after ⟨some 1, none⟩
    (.createWorkspace ⟨"Team", none, none⟩)).after ⟨some 1, none⟩
    (.createDocument 1 ⟨"Flow", .mermaid, none, none, some "a-->b"⟩)).after ⟨some 1, none⟩
    (.shareDocument 2 ⟨none, .edit, none⟩)

theorem sample_reachable : Reachable sample.store :=
  .served (.served (.served .empty _ _ _) _ _ _) _ _ _

end DiagramShare.Service
