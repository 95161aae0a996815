import Polycube.K8s.Parser

/-!
# What a parsed policy is about

An `Endpoint` is the other side of a pod's traffic.  `PolicyPeer.covers` says whether the peer of a
parsed policy stands for it; addresses and the reading of address blocks are parameters.
-/

namespace Polycube.K8s

structure Pod where
  name : String
  labels : Labels
  nameSpace : String
  nameSpaceLabels : Labels
  deriving DecidableEq

structure Endpoint (Ip : Type*) where
  ip : Ip
  pod : Option Pod

structure Reading (Ip : Type*) where
  inBlock : String → Ip → Bool

def labelsContained (needle haystack : Labels) : Bool :=
  needle.all fun p => haystack.lookup p.1 == some p.2

def queryMatches (q : Option ObjectQuery) (name : String) (labels : Labels) : Bool :=
  match q with
  | none => true
  | some (.name n) => n == name
  | some (.labels l) => labelsContained l labels

theorem queryMatches_labels (labels : Labels) (name : String) (l : Labels) :
    queryMatches (buildQuery "" labels) name l = labelsContained labels l := by
  by_cases h : labels = []
  · simp [buildQuery, h, queryMatches, labelsContained]
  · simp [buildQuery, h, queryMatches]

theorem queryMatches_name {name : String} (h : name ≠ "") (name' : String) (l : Labels) :
    queryMatches (buildQuery name []) name' l = (name == name') := by
  simp [buildQuery, h, queryMatches]

section Parsed

variable {Ip : Type*} (ρ : Reading Ip) (e : Endpoint Ip)

def PolicyPeer.covers (p : PolicyPeer) : Bool :=
  if p.ipBlock ≠ [] then p.ipBlock.any fun b => ρ.inBlock b e.ip
  else match e.pod with
    | none => false
    | some pod => queryMatches p.peer pod.name pod.labels &&
        queryMatches p.nameSpace pod.nameSpace pod.nameSpaceLabels

end Parsed

def ParsedRules.at (r : ParsedRules) : PolicyDirection → List ChainRule
  | .incoming => r.incoming
  | .outgoing => r.outgoing

end Polycube.K8s
