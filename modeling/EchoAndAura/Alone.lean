import EchoAndAura.Orders

/-!
# A request alone

What a request answers, and the database it leaves, when nobody is about while it runs.
-/

namespace Txn

variable {Db Row W ε O α β : Type} [Rows Db Row W]

/-- What a transaction body comes to on `d`: its answer and the writes it makes, or the error it is
rolled back with. -/
def Tx.alone (d : Db) : Tx Db Row W ε β → List W → Except ε (β × List W)
  | .pure b, ws => .ok (b, ws)
  | .throw e, _ => .error e
  | .call s k, ws =>
    match s.exec (writeAll ws d) with
    | .read r => (k r).alone d ws
    | .hit _ ws' r => (k r).alone d (ws ++ ws')
    | .fail e => .error e

def Prog.alone : Prog Db Row W ε O α → Db → α × Db
  | .done a, d => (a, d)
  | .say _ k, d => k.alone d
  | .look _ f k, d => (k (f d)).alone d
  | .tx t k, d =>
    match t.alone d [] with
    | .ok (b, ws) => (k (.ok b)).alone (writeAll ws d)
    | .error e => (k (.error e)).alone d

end Txn

namespace EchoAndAura

def Svc.alone {α : Type} (s : Svc α) (d : Db) : Except Err α × Db := s.run.alone d

end EchoAndAura
