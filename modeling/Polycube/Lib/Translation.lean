import Polycube.Lib.Flow
import Polycube.Lib.Owned

/-!
# Translations of sources

A translation gives the packets of a tuple a new source.  Its answers come to that source, and a
table has the client's address and port for them.  `Kept` says that the table has them for each of
some translations.  A new one keeps the others as long as its source is unused (`Unused`).
-/

namespace Polycube.Lib

open Function

structure Translation where
  orig : FiveTuple
  newIp : BitVec 32
  newPort : BitVec 16
  deriving DecidableEq

def Translation.answers (a : Translation) : FiveTuple := a.orig.answer a.newIp a.newPort

def Translation.apply (a : Translation) (p : Ip) : Ip := p.setSource a.newIp a.newPort

def Translation.restore (a : Translation) (r : Ip) : Ip := r.setDest a.orig.srcIp a.orig.srcPort

/-- A source is used by no translation of another tuple for the same remote end: the same address
and, but for ICMP, the same port. -/
def Unused (live : List Translation) (t : FiveTuple) (newIp : BitVec 32) (newPort : BitVec 16) :
    Prop :=
  ∀ b ∈ live, b.newIp = newIp → b.newPort = newPort → b.orig.proto = t.proto →
    b.orig.dstIp = t.dstIp → (t.proto ≠ ipprotoIcmp → b.orig.dstPort = t.dstPort) → b.orig = t

theorem Unused.orig_eq {live : List Translation} {a : Translation}
    (unused : Unused live a.orig a.newIp a.newPort) {b : Translation} (hb : b ∈ live)
    (hk : b.answers = a.answers) : b.orig = a.orig := by
  unfold Translation.answers FiveTuple.answer at hk
  obtain ⟨dstIp, newIp, dstPort, newPort, proto⟩ := FiveTuple.mk.injEq .. ▸ hk
  refine unused b hb newIp newPort proto dstIp fun other => ?_
  rwa [proto, if_neg other, if_neg other] at dstPort

/-- For each translation the table has the client of the answers.  `target` is the destination that
an entry gives. -/
structure Kept {α : Type*} (target : α → Option (BitVec 32 × BitVec 16)) (t : Table FiveTuple α)
    (live : List Translation) : Prop where
  owned : Owned target Translation.answers (fun a => some a.orig.client) t live
  echo : ∀ a ∈ live, a.orig.Echo

namespace Kept

variable {α : Type*} {target : α → Option (BitVec 32 × BitVec 16)} {t : Table FiveTuple α}
  {live : List Translation}

theorem nil : Kept target t [] := ⟨Owned.nil, fun _ h => absurd h List.not_mem_nil⟩

/-- Translations of different tuples have answers of different tuples. -/
theorem separate (h : Kept target t live) {a b : Translation} (ha : a ∈ live) (hb : b ∈ live)
    (hk : a.answers = b.answers) : a.orig = b.orig :=
  FiveTuple.eq_of_answer (h.echo a ha) (h.echo b hb) hk
    (Option.some.inj (h.owned.own_eq ha hb hk))

/-- An answer to a translated packet finds the client, and becomes an answer to the packet. -/
theorem back (h : Kept target t live) {a : Translation} (ha : a ∈ live) {p r : Ip}
    (hp : p.tuple = some a.orig) (hr : r.Answers (a.apply p)) :
    (∃ v, r.tuple = some a.answers ∧ t a.answers = some v ∧ target v = some a.orig.client) ∧
      (a.restore r).Answers p := by
  obtain ⟨hkey, answers⟩ := hr.back hp
  obtain ⟨v, hv, client⟩ := h.owned.entry ha
  exact ⟨⟨v, hkey, hv, client⟩, answers⟩

theorem cons (h : Kept target t live) {a : Translation} (echo : a.orig.Echo) {v : α}
    (hv : target v = some a.orig.client)
    (free : ∀ b ∈ live, b.answers = a.answers → b.orig = a.orig) :
    Kept target (update t a.answers (some v)) (a :: live) where
  owned := h.owned.cons hv fun b hb hk => by rw [free b hb hk]
  echo b hb := by
    rcases List.mem_cons.1 hb with rfl | hb
    · exact echo
    · exact h.echo b hb

theorem write (h : Kept target t live) {k : FiveTuple} (miss : t k = none) (v : Option α) :
    Kept target (update t k v) live :=
  ⟨h.owned.write (h.owned.key_ne miss), h.echo⟩

theorem filter (h : Kept target t live) (k : FiveTuple) :
    Kept target (update t k none) (live.filter fun a => a.answers ≠ k) :=
  ⟨h.owned.filter k, fun a ha => h.echo a (List.mem_of_mem_filter ha)⟩

end Kept

end Polycube.Lib
