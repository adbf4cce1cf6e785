import Mathlib.Data.List.Sort
import RtcMcu.Avformat.SdpCodes
import RtcMcu.Lib.Along
import RtcMcu.Lib.Successor

/-!
# ketama_hash

`util/ketama_hash.cpp`: servers are spread over a ring of virtual nodes, and a key belongs to the
server of the first node from the key's hash on. A node has the index of its server in `_shards`.

`setup_nodes` adds the nodes of all servers to the nodes that are there. The search is right on any
sorted ring. Nodes are never taken away, though: those of a removed server stay, and no index is
corrected, so that a node leads to another server or to none. As long as no server that is there is
removed, every key finds one (`ketama_hash_along`).
-/

namespace RtcMcu.Util

open RtcMcu.Successor

/-- `server_info`. -/
structure ServerInfo where
  name : List Byte
  weight : BitVec 32
  ip : BitVec 32
  port : BitVec 16
  level : BitVec 16
  forwardid : BitVec 64
  playerPort : BitVec 16
  uploaderPort : BitVec 16
  asn : BitVec 16
  region : BitVec 16
  deriving DecidableEq

/-- `operator<` of servers: by their names. -/
def ServerInfo.before (a b : ServerInfo) : Prop := List.Lex (· < ·) a.name b.name

instance : DecidableRel ServerInfo.before := fun a b =>
  inferInstanceAs (Decidable (List.Lex (· < ·) a.name b.name))

/-- `virtual_node`. -/
structure VirtualNode where
  name : List Byte
  sInfoIdx : Nat
  deriving DecidableEq

/-- `murmur_hash` over the words of the key, and over what is left of it. -/
def murmurLoop : BitVec 32 → List Byte → BitVec 32
  | h, a :: b :: c :: d :: data =>
    let k : BitVec 32 := a.setWidth 32 ||| b.setWidth 32 <<< 8 ||| c.setWidth 32 <<< 16 |||
      d.setWidth 32 <<< 24
    let k := k * 0x5bd1e995
    let k := k ^^^ k >>> 24
    let k := k * 0x5bd1e995
    murmurLoop (h * 0x5bd1e995 ^^^ k) data
  | h, [a, b, c] =>
    (h ^^^ c.setWidth 32 <<< 16 ^^^ b.setWidth 32 <<< 8 ^^^ a.setWidth 32) * 0x5bd1e995
  | h, [a, b] => (h ^^^ b.setWidth 32 <<< 8 ^^^ a.setWidth 32) * 0x5bd1e995
  | h, [a] => (h ^^^ a.setWidth 32) * 0x5bd1e995
  | h, [] => h

/-- `murmur_hash`. -/
def murmurHash (key : List Byte) : BitVec 32 :=
  let h := murmurLoop (BitVec.ofNat 32 key.length) key
  let h := h ^^^ h >>> 13
  let h := h * 0x5bd1e995
  h ^^^ h >>> 15

/-- The point of a node on the ring. -/
def pointOf (hash : List Byte → BitVec 32) (v : VirtualNode) : Nat := (hash v.name).toNat

/-- `std::sort` of the servers by their names and of the nodes by their hashes, in whatever order it
leaves those that are equal. -/
structure StdSort (hash : List Byte → BitVec 32) where
  shards : List ServerInfo → List ServerInfo
  nodes : List VirtualNode → List VirtualNode
  shards_perm : ∀ l, (shards l).Perm l
  shards_sorted : ∀ l, (shards l).Pairwise fun a b => ¬ b.before a
  nodes_perm : ∀ l, (nodes l).Perm l
  nodes_sorted : ∀ l, Sorted (pointOf hash) (nodes l)

/-- `ketama_hash`. -/
structure KetamaHash where
  shards : List ServerInfo
  nodes : List VirtualNode

namespace KetamaHash

/-- The name of a virtual node. -/
def nodeName (name : List Byte) (j : Nat) : List Byte :=
  ascii "server-" ++ name ++ ascii "node-" ++ Avformat.decimalDigits 10 j

/-- The nodes that the loops of `setup_nodes` add. -/
def newNodes (shards : List ServerInfo) : List VirtualNode :=
  shards.zipIdx.flatMap fun e =>
    (List.range e.1.weight.toNat).map fun j => { name := nodeName e.1.name j, sInfoIdx := e.2 }

def new : KetamaHash := { shards := [], nodes := [] }

section Operations

variable {hash : List Byte → BitVec 32} (std : StdSort hash)

/-- `setup_nodes`. -/
def setupNodes (s : KetamaHash) : KetamaHash :=
  let shards := std.shards s.shards
  { shards := shards, nodes := std.nodes (s.nodes ++ newNodes shards) }

/-- `init`. -/
def init (s : KetamaHash) (shards : List ServerInfo) : KetamaHash × Int :=
  if shards.length ≠ 0 then (setupNodes std { s with shards := s.shards ++ shards }, 0)
  else (s, -1)

/-- `insert`. -/
def insert (s : KetamaHash) (sInfo : ServerInfo) : KetamaHash :=
  setupNodes std { s with shards := s.shards ++ [sInfo] }

/-- `remove`. Behind an erased server the iterator stands on the next one. -/
def remove (s : KetamaHash) (name : List Byte) : KetamaHash :=
  setupNodes std { s with shards := s.shards.filter fun server => server.name ≠ name }

/-- The operations. -/
inductive Op
  | init (shards : List ServerInfo)
  | insert (sInfo : ServerInfo)
  | remove (name : List Byte)

def step (s : KetamaHash) : Op → Except Fault KetamaHash
  | .init shards => .ok (s.init std shards).1
  | .insert sInfo => .ok (s.insert std sInfo)
  | .remove name => .ok (s.remove std name)

/-- A run. -/
def run (s : KetamaHash) (ops : List Op) : Except Fault KetamaHash := ops.foldlM (step std) s

end Operations

section Search

variable (hash : List Byte → BitVec 32)

/-- `compare`. -/
def compare (a b : List Byte) : Int :=
  if hash a = hash b then 0 else if (hash a).toNat < (hash b).toNat then -1 else 1

/-- `_nodes[i]`. -/
def nodeAt (nodes : List VirtualNode) (i : Int) : Except Fault VirtualNode :=
  if i < 0 then .error .outOfBounds
  else
    match nodes[i.toNat]? with
    | none => .error .outOfBounds
    | some v => .ok v

/-- The loop of `bsearch`. -/
def bsearchLoop (nodes : List VirtualNode) (num : Int) (key : List Byte) :
    Nat → Int → Int → Except Fault VirtualNode
  | 0, _, _ => .error .outOfFuel
  | fuel + 1, i, j => do
    let mid := (int32 (i + j)).tdiv 2
    let v ← nodeAt nodes mid
    if compare hash key v.name = 0 then .ok v
    else if compare hash key v.name < 0 then
      if mid - 1 < 0 then nodeAt nodes 0 else bsearchLoop nodes num key fuel i (mid - 1)
    else if mid + 1 < num then do
      let next ← nodeAt nodes (mid + 1)
      if compare hash key next.name ≤ 0 then .ok next
      else bsearchLoop nodes num key fuel (mid + 1) j
    else nodeAt nodes 0

/-- `bsearch`, `none` for a null pointer. -/
def bsearch (s : KetamaHash) (key : List Byte) : Except Fault (Option VirtualNode) :=
  let num := int32 s.nodes.length
  if num = 0 then .ok none
  else do
    let v ← bsearchLoop hash s.nodes num key (s.nodes.length + 1) 0 (num - 1)
    .ok (some v)

/-- `get_server_info`, `none` for the `server_info` whose `ip` is 0. -/
def getServerInfo (s : KetamaHash) (key : List Byte) : Except Fault (Option ServerInfo) := do
  match ← s.bsearch hash key with
  | none => .ok none
  | some v =>
    match s.shards[v.sInfoIdx]? with
    | none => .error .outOfBounds
    | some server => .ok (some server)

end Search

/-! ## The search -/

section Search

variable {hash : List Byte → BitVec 32}

variable (hash) in
theorem compare_cases (a b : List Byte) :
    (compare hash a b = 0 ∧ (hash a).toNat = (hash b).toNat) ∨
      (compare hash a b = -1 ∧ (hash a).toNat < (hash b).toNat) ∨
      (compare hash a b = 1 ∧ (hash b).toNat < (hash a).toNat) := by
  rw [compare]
  split
  · next heq => exact .inl ⟨rfl, congrArg BitVec.toNat heq⟩
  · next hne =>
    split
    · next hlt => exact .inr (.inl ⟨rfl, hlt⟩)
    · next hge =>
      refine .inr (.inr ⟨rfl, ?_⟩)
      have hnat : (hash a).toNat ≠ (hash b).toNat := fun heq => hne (BitVec.eq_of_toNat_eq heq)
      omega

theorem nodeAt_eq {nodes : List VirtualNode} {k : Nat} {v : VirtualNode} (h : nodes[k]? = some v) :
    nodeAt nodes k = .ok v := by
  rw [nodeAt, if_neg (by omega), Int.toNat_natCast, h]

/-- Half of a sum that is an `int`. -/
theorem mid_eq {i j : Nat} (h : i + j < 2 ^ 31) :
    (int32 ((i : Int) + j)).tdiv 2 = (((i + j) / 2 : Nat) : Int) := by
  rw [int32_of_lt (by omega) (by omega), Int.tdiv_eq_ediv_of_nonneg (by omega)]
  omega

/-- What the loop knows of its interval: the key lies behind the first node, unless that is the first
of all, and before the node behind the last one. -/
structure Between (hash : List Byte → BitVec 32) (nodes : List VirtualNode) (key : List Byte)
    (i j : Nat) : Prop where
  le : i ≤ j
  lt : j < nodes.length
  low : i = 0 ∨ ∀ u, nodes[i]? = some u → pointOf hash u < (hash key).toNat
  high : ∀ u, nodes[j + 1]? = some u → (hash key).toNat < pointOf hash u

/-- The loop ends on the successor of the key. -/
theorem bsearchLoop_spec {nodes : List VirtualNode} (hsorted : Sorted (pointOf hash) nodes)
    (hlen : nodes.length ≤ 2 ^ 30) (key : List Byte) :
    ∀ (fuel : Nat) {i j : Nat}, Between hash nodes key i j → j - i < fuel →
      ∃ v, bsearchLoop hash nodes nodes.length key fuel i j = .ok v ∧
        IsSuccessor (pointOf hash) nodes (hash key).toNat v := by
  intro fuel
  induction fuel with
  | zero => exact fun _ hfuel => absurd hfuel (Nat.not_lt_zero _)
  | succ fuel ih =>
    intro i j h hfuel
    have hle := h.le
    have hlt := h.lt
    obtain ⟨m, hm, him, hmj⟩ : ∃ m, (i + j) / 2 = m ∧ i ≤ m ∧ m ≤ j :=
      ⟨(i + j) / 2, rfl, by omega, by omega⟩
    obtain ⟨v, hv⟩ : ∃ v, nodes[m]? = some v := ⟨_, List.getElem?_eq_getElem (by omega)⟩
    obtain ⟨first, hfirst⟩ : ∃ v, nodes[0]? = some v := ⟨_, List.getElem?_eq_getElem (by omega)⟩
    have hzero : nodeAt nodes 0 = .ok first := nodeAt_eq hfirst
    rw [bsearchLoop, mid_eq (by omega), hm, nodeAt_eq hv, ok_bind]
    rcases compare_cases hash key v.name with ⟨hc, hkey⟩ | ⟨hc, hkey⟩ | ⟨hc, hkey⟩
    · rw [hc, if_pos rfl]
      exact ⟨v, rfl, List.mem_of_getElem? hv, .inl ⟨Nat.le_of_eq hkey,
        fun u _ hu => Nat.le_trans (Nat.le_of_eq hkey.symm) hu⟩⟩
    · rw [hc, if_neg (by decide), if_pos (by decide)]
      by_cases hm0 : m = 0
      · rw [if_pos (by omega), hzero]
        subst hm0
        rw [hv] at hfirst
        cases hfirst
        exact ⟨v, rfl, .of_sorted hsorted hv (Nat.le_of_lt hkey)
          fun k u hk => absurd hk (Nat.not_lt_zero k)⟩
      · have hstrict : i ≤ m - 1 := by
          rcases h.low with hi | hbelow
          · omega
          · have hne : i ≠ m := by
              rintro rfl
              exact absurd (hbelow v hv) (Nat.lt_asymm hkey)
            omega
        have hcast : (m : Int) - 1 = ((m - 1 : Nat) : Int) := by omega
        rw [if_neg (by omega), hcast]
        refine ih ⟨hstrict, by omega, h.low, fun u hu => ?_⟩ (by omega)
        rw [Nat.sub_add_cancel (Nat.pos_of_ne_zero hm0), hv] at hu
        cases hu
        exact hkey
    · rw [hc, if_neg (by decide), if_neg (by decide)]
      have hbelow : ∀ k u, k < m + 1 → nodes[k]? = some u →
          pointOf hash u < (hash key).toNat := fun k u hk hu =>
        Nat.lt_of_le_of_lt (hsorted.le (Nat.le_of_lt_succ hk) hu hv) hkey
      by_cases hlast : m + 1 < nodes.length
      · obtain ⟨next, hnext⟩ : ∃ v, nodes[m + 1]? = some v :=
          ⟨_, List.getElem?_eq_getElem hlast⟩
        have hnextAt : nodeAt nodes ((m : Int) + 1) = .ok next := nodeAt_eq hnext
        rw [if_pos (by omega), hnextAt, ok_bind]
        by_cases hle' : (hash key).toNat ≤ pointOf hash next
        · have hcmp : compare hash key next.name ≤ 0 := by
            rcases compare_cases hash key next.name with ⟨hc', -⟩ | ⟨hc', -⟩ | ⟨-, hgt⟩
            · omega
            · omega
            · exact absurd hle' (Nat.not_le_of_lt hgt)
          rw [if_pos hcmp]
          exact ⟨next, rfl, .of_sorted hsorted hnext hle' hbelow⟩
        · have hcmp : ¬ compare hash key next.name ≤ 0 := by
            rcases compare_cases hash key next.name with ⟨-, heq⟩ | ⟨-, hlt'⟩ | ⟨hc', -⟩
            · exact absurd (Nat.le_of_eq heq) hle'
            · exact absurd (Nat.le_of_lt hlt') hle'
            · omega
          rw [if_neg hcmp]
          have hmore : m + 1 ≤ j := by
            by_contra hend
            have heq : m = j := by omega
            rw [heq] at hnext
            exact hle' (Nat.le_of_lt (h.high next hnext))
          refine ih (i := m + 1) ⟨hmore, hlt, .inr fun u hu => ?_, h.high⟩ (by omega)
          rw [hnext] at hu
          cases hu
          exact Nat.lt_of_not_le hle'
      · rw [if_neg (by omega), hzero]
        refine ⟨first, rfl, .wrap hsorted hfirst fun u hu => ?_⟩
        obtain ⟨k, hk⟩ := List.mem_iff_getElem?.mp hu
        obtain ⟨hklt, -⟩ := List.getElem?_eq_some_iff.mp hk
        exact hbelow k u (by omega) hk

/-- A ring of at most 2^30 nodes is searched to the successor of the key. -/
theorem bsearch_spec {s : KetamaHash} (hsorted : Sorted (pointOf hash) s.nodes)
    (hlen : s.nodes.length ≤ 2 ^ 30) (hne : s.nodes ≠ []) (key : List Byte) :
    ∃ v, s.bsearch hash key = .ok (some v) ∧
      IsSuccessor (pointOf hash) s.nodes (hash key).toNat v := by
  have hpos := List.length_pos_iff.mpr hne
  have hnum : int32 s.nodes.length = s.nodes.length := int32_of_lt (by omega) (by omega)
  have hlast : (s.nodes.length : Int) - 1 = ((s.nodes.length - 1 : Nat) : Int) := by omega
  have hwhole : Between hash s.nodes key 0 (s.nodes.length - 1) := by
    refine ⟨Nat.zero_le _, by omega, .inl rfl, fun u hu => ?_⟩
    rw [List.getElem?_eq_none (by omega)] at hu
    cases hu
  obtain ⟨v, hloop, hsucc⟩ := bsearchLoop_spec hsorted hlen key (s.nodes.length + 1) hwhole
    (by omega)
  refine ⟨v, ?_, hsucc⟩
  rw [bsearch, hnum, if_neg (by omega), hlast]
  change (bsearchLoop hash s.nodes s.nodes.length key (s.nodes.length + 1) ((0 : Nat) : Int) _ >>= _)
    = _
  rw [hloop, ok_bind]

end Search

/-! ## The nodes -/

theorem mem_newNodes {shards : List ServerInfo} {v : VirtualNode} :
    v ∈ newNodes shards ↔ ∃ server, shards[v.sInfoIdx]? = some server ∧
      ∃ j < server.weight.toNat, v.name = nodeName server.name j := by
  rw [newNodes, List.mem_flatMap]
  constructor
  · rintro ⟨⟨server, i⟩, hserver, hv⟩
    obtain ⟨j, hj, rfl⟩ := List.mem_map.mp hv
    exact ⟨server, List.mem_zipIdx_iff_getElem?.mp hserver, j, List.mem_range.mp hj, rfl⟩
  · rintro ⟨server, hserver, j, hj, hname⟩
    refine ⟨(server, v.sInfoIdx), List.mem_zipIdx_iff_getElem?.mpr hserver, List.mem_map.mpr ?_⟩
    exact ⟨j, List.mem_range.mpr hj, by rw [← hname]⟩

/-- The weights of servers together. -/
def totalWeight (shards : List ServerInfo) : Nat :=
  (shards.map fun server => server.weight.toNat).sum

theorem length_newNodes (shards : List ServerInfo) :
    (newNodes shards).length = totalWeight shards := by
  rw [newNodes, List.length_flatMap, totalWeight]
  simp only [List.length_map, List.length_range]
  rw [← Function.comp_def (fun server : ServerInfo => server.weight.toNat) Prod.fst, ← List.map_map,
    List.zipIdx_map_fst]

/-! ## Runs without a removal -/

section Runs

variable {hash : List Byte → BitVec 32} (std : StdSort hash)

/-- The servers an operation adds. -/
def Op.servers : Op → List ServerInfo
  | .init shards => shards
  | .insert sInfo => [sInfo]
  | .remove _ => []

/-- The ring is sorted and consists of the nodes of the servers, and every index is that of a server.
The last server has a node. -/
structure Sound (hash : List Byte → BitVec 32) (s : KetamaHash) : Prop where
  weights : ∀ server ∈ s.shards, 0 < server.weight.toNat
  inRange : ∀ v ∈ s.nodes, v.sInfoIdx < s.shards.length
  owned : ∀ v ∈ s.nodes, ∃ server ∈ s.shards,
    ∃ j < server.weight.toNat, v.name = nodeName server.name j
  complete : ∀ server ∈ s.shards, ∀ j < server.weight.toNat,
    ∃ v ∈ s.nodes, v.name = nodeName server.name j
  last : s.shards ≠ [] → ∃ v ∈ s.nodes, v.sInfoIdx + 1 = s.shards.length
  sorted : Sorted (pointOf hash) s.nodes
  length : s.nodes.length ≤ 2 ^ 30

/-- `setup_nodes` over servers that keep their number, or become more. -/
theorem setupNodes_sound {s : KetamaHash} (hweights : ∀ server ∈ s.shards, 0 < server.weight.toNat)
    (hrange : ∀ v ∈ s.nodes, v.sInfoIdx < s.shards.length)
    (howned : ∀ v ∈ s.nodes, ∃ server ∈ s.shards,
      ∃ j < server.weight.toNat, v.name = nodeName server.name j)
    (hlen : s.nodes.length + totalWeight s.shards ≤ 2 ^ 30) : Sound hash (s.setupNodes std) := by
  have hshards := std.shards_perm s.shards
  have hnodes := std.nodes_perm (s.nodes ++ newNodes (std.shards s.shards))
  have hmem : ∀ v, v ∈ (s.setupNodes std).nodes ↔
      v ∈ s.nodes ∨ v ∈ newNodes (std.shards s.shards) := fun v =>
    hnodes.mem_iff.trans List.mem_append
  constructor
  · exact fun server hserver => hweights server (hshards.mem_iff.mp hserver)
  · intro v hv
    rcases (hmem v).mp hv with hold | hnew
    · exact Nat.lt_of_lt_of_eq (hrange v hold) hshards.length_eq.symm
    · obtain ⟨server, hserver, -⟩ := mem_newNodes.mp hnew
      exact (List.getElem?_eq_some_iff.mp hserver).1
  · intro v hv
    rcases (hmem v).mp hv with hold | hnew
    · obtain ⟨server, hserver, hname⟩ := howned v hold
      exact ⟨server, hshards.mem_iff.mpr hserver, hname⟩
    · obtain ⟨server, hserver, hname⟩ := mem_newNodes.mp hnew
      exact ⟨server, List.mem_of_getElem? hserver, hname⟩
  · intro server hserver j hj
    obtain ⟨k, hk⟩ := List.mem_iff_getElem?.mp hserver
    exact ⟨⟨nodeName server.name j, k⟩,
      (hmem _).mpr (.inr (mem_newNodes.mpr ⟨server, hk, j, hj, rfl⟩)), rfl⟩
  · intro hne
    have hpos := List.length_pos_iff.mpr hne
    have hlast : (s.setupNodes std).shards[(s.setupNodes std).shards.length - 1]? = some _ :=
      List.getElem?_eq_getElem (by omega)
    have hweight := hweights _ (hshards.mem_iff.mp (List.mem_of_getElem? hlast))
    refine ⟨⟨_, (s.setupNodes std).shards.length - 1⟩,
      (hmem _).mpr (.inr (mem_newNodes.mpr ⟨_, hlast, 0, hweight, rfl⟩)), ?_⟩
    exact Nat.sub_add_cancel hpos
  · exact std.nodes_sorted _
  · have htotal : totalWeight (std.shards s.shards) = totalWeight s.shards :=
      (hshards.map _).sum_nat
    change (std.nodes _).length ≤ _
    rw [hnodes.length_eq, List.length_append, length_newNodes, htotal]
    exact hlen

/-- What the operations have to keep to: no server that is there is removed, and the ring does not
grow above 2^30 nodes. -/
def Meets (s : KetamaHash) (op : Op) : Prop :=
  (∀ name, op = .remove name → name ∉ s.shards.map ServerInfo.name) ∧
    s.nodes.length + totalWeight (s.shards ++ op.servers) ≤ 2 ^ 30

variable {std}

theorem Sound.added {s : KetamaHash} (h : Sound hash s) {added : List ServerInfo}
    (hweights : ∀ server ∈ added, 0 < server.weight.toNat)
    (hlen : s.nodes.length + totalWeight (s.shards ++ added) ≤ 2 ^ 30) :
    Sound hash (setupNodes std { s with shards := s.shards ++ added }) := by
  apply setupNodes_sound
  · intro server hserver
    rcases List.mem_append.mp hserver with hold | hnew
    · exact h.weights server hold
    · exact hweights server hnew
  · intro v hv
    change v.sInfoIdx < (s.shards ++ added).length
    rw [List.length_append]
    exact Nat.lt_add_right _ (h.inRange v hv)
  · intro v hv
    obtain ⟨server, hserver, hname⟩ := h.owned v hv
    exact ⟨server, List.mem_append_left _ hserver, hname⟩
  · exact hlen

theorem step_sound (std : StdSort hash) {s : KetamaHash} {op : Op} (h : Sound hash s) (hmeets : Meets s op)
    (hweights : ∀ server ∈ op.servers, 0 < server.weight.toNat) :
    ∃ s', step std s op = .ok s' ∧ Sound hash s' := by
  cases op with
  | init shards =>
    refine ⟨_, rfl, ?_⟩
    rw [init]
    split
    · exact h.added hweights hmeets.2
    · exact h
  | insert sInfo => exact ⟨_, rfl, h.added hweights hmeets.2⟩
  | remove name =>
    refine ⟨_, rfl, ?_⟩
    have hsame : (s.shards.filter fun server => server.name ≠ name) = s.shards ++ [] := by
      rw [List.append_nil, List.filter_eq_self]
      intro server hserver
      rw [decide_eq_true_eq]
      exact fun heq => hmeets.1 name rfl (heq ▸ List.mem_map_of_mem hserver)
    rw [remove, hsame]
    exact h.added hweights hmeets.2

/-! ## What the ring answers -/

/-- Every key finds a server that is there, if there is one; the nodes are those of the servers; and
the search ends on the successor of the key. -/
structure Serves (hash : List Byte → BitVec 32) (s : KetamaHash) : Prop where
  present : s.shards ≠ [] → ∀ key, ∃ server ∈ s.shards, s.getServerInfo hash key = .ok (some server)
  ring : ∀ name, (∃ v ∈ s.nodes, v.name = name) ↔
    ∃ server ∈ s.shards, ∃ j < server.weight.toNat, nodeName server.name j = name
  search : s.nodes ≠ [] → ∀ key, ∃ v, s.bsearch hash key = .ok (some v) ∧
    IsSuccessor (pointOf hash) s.nodes (hash key).toNat v

/-- From `s` to `s'` a server was removed, and the keys of the others found the same as before. -/
def RemovesOnly (hash : List Byte → BitVec 32) (name : List Byte) (s s' : KetamaHash) : Prop :=
  name ∈ s.shards.map ServerInfo.name → ∀ key server, server.name ≠ name →
    s.getServerInfo hash key = .ok (some server) → s'.getServerInfo hash key = .ok (some server)

theorem Sound.serves {s : KetamaHash} (h : Sound hash s) : Serves hash s where
  present hne key := by
    obtain ⟨last, hlast, -⟩ := h.last hne
    obtain ⟨v, hsearch, hsucc⟩ :=
      bsearch_spec h.sorted h.length (List.ne_nil_of_mem hlast) key
    have hidx := List.getElem?_eq_getElem (h.inRange v hsucc.1)
    exact ⟨_, List.getElem_mem (h.inRange v hsucc.1), by
      rw [getServerInfo, hsearch, ok_bind]
      simp only [hidx]⟩
  ring name := by
    constructor
    · rintro ⟨v, hv, rfl⟩
      obtain ⟨server, hserver, j, hj, hname⟩ := h.owned v hv
      exact ⟨server, hserver, j, hj, hname.symm⟩
    · rintro ⟨server, hserver, j, hj, rfl⟩
      exact h.complete server hserver j hj
  search hne key := bsearch_spec h.sorted h.length hne key

/-- The nodes of a ring that loses a server stay, and one of them leads to no server any more. -/
theorem Sound.remove_stale {s : KetamaHash} (h : Sound hash s) {name : List Byte}
    (hname : name ∈ s.shards.map ServerInfo.name) :
    ∃ v ∈ (s.remove std name).nodes, (s.remove std name).shards.length ≤ v.sInfoIdx := by
  obtain ⟨server, hserver, hat⟩ := List.mem_map.mp hname
  obtain ⟨v, hv, hidx⟩ := h.last (List.ne_nil_of_mem hserver)
  have hfewer : (s.shards.filter fun server => server.name ≠ name).length < s.shards.length := by
    apply List.length_filter_lt_length_iff_exists.mpr
    exact ⟨server, hserver, by simp [hat]⟩
  refine ⟨v, (std.nodes_perm _).mem_iff.mpr (List.mem_append_left _ hv), ?_⟩
  change (std.shards _).length ≤ _
  rw [(std.shards_perm _).length_eq]
  exact Nat.le_of_lt_succ (by rw [Nat.succ_eq_add_one, hidx]; exact hfewer)

theorem new_sound : Sound hash new where
  weights _ hserver := absurd hserver List.not_mem_nil
  inRange _ hv := absurd hv List.not_mem_nil
  owned _ hv := absurd hv List.not_mem_nil
  complete _ hserver := absurd hserver List.not_mem_nil
  last hne := absurd rfl hne
  sorted := List.Pairwise.nil
  length := Nat.zero_le _

/-- In every state of a run that removes no server that is there, and in which the ring has at most
2^30 nodes, the keys find servers that are there by the successors on the ring, and a removal leaves
the keys of the others alone. To remove a server that is there would leave a node without one. -/
theorem ketama_hash_along (std : StdSort hash) (ops : List Op)
    (hweights : ∀ op ∈ ops, ∀ server ∈ op.servers, 0 < server.weight.toNat)
    (h : Along (step std) Meets new ops) (pre post : List Op) (hops : ops = pre ++ post) :
    ∃ s, new.run std pre = .ok s ∧ Serves hash s ∧
      (∀ name post', post = .remove name :: post' → RemovesOnly hash name s (s.remove std name)) ∧
      ∀ name ∈ s.shards.map ServerInfo.name,
        ∃ v ∈ (s.remove std name).nodes, (s.remove std name).shards.length ≤ v.sInfoIdx := by
  have hpositive : Along (step std)
      (fun _ op => ∀ server ∈ op.servers, 0 < server.weight.toNat) new ops :=
    Along.of_invariant (I := fun _ => True) (E := fun _ => True)
      (fun _ op hop _ => hweights op hop) (fun _ op _ _ => by cases op <;> trivial) trivial
  have hrun : Coupling.Ends (fun _ => False) (Sound hash) (pre.foldlM (step std) new) := by
    refine Along.prefix_run (fun s op hs hop => ?_) (h.and hpositive) hops new_sound
    obtain ⟨s', hstep, hs'⟩ := step_sound std hs hop.1 hop.2
    rw [hstep]
    exact hs'
  cases hs : pre.foldlM (step std) new with
  | error e =>
    rw [hs] at hrun
    exact hrun.elim
  | ok s =>
    rw [hs] at hrun
    have hsound : Sound hash s := hrun
    refine ⟨s, hs, hsound.serves, fun name post' hpost hmem => ?_, fun name hmem =>
      hsound.remove_stale hmem⟩
    have hmeets := h.at_call (hops.trans (by rw [hpost])) hs
    exact absurd hmem (hmeets.1 name rfl)

end Runs

/-! ## Two runs -/

instance : Std.Total fun a b : ServerInfo => ¬ b.before a where
  total a b := List.le_total a.name b.name

instance : IsTrans ServerInfo fun a b => ¬ b.before a where
  trans a b c hab hbc := @List.le_trans Byte _ _ _ _ a.name b.name c.name hab hbc

instance (hash : List Byte → BitVec 32) :
    Std.Total fun u v : VirtualNode => pointOf hash u ≤ pointOf hash v where
  total u v := Nat.le_total (pointOf hash u) (pointOf hash v)

instance (hash : List Byte → BitVec 32) :
    IsTrans VirtualNode fun u v => pointOf hash u ≤ pointOf hash v where
  trans _ _ _ huv hvw := Nat.le_trans huv hvw

/-- A sort that inserts. -/
def insertionStd (hash : List Byte → BitVec 32) : StdSort hash where
  shards l := l.insertionSort fun a b => ¬ b.before a
  nodes l := l.insertionSort fun u v => pointOf hash u ≤ pointOf hash v
  shards_perm l := List.perm_insertionSort _ l
  shards_sorted l := List.pairwise_insertionSort _ l
  nodes_perm l := List.perm_insertionSort _ l
  nodes_sorted l := List.pairwise_insertionSort _ l

/-- A server with one virtual node. -/
def light (name : List Byte) : ServerInfo where
  name := name
  weight := 1
  ip := 1
  port := 80
  level := 0
  forwardid := 0
  playerPort := 0
  uploaderPort := 0
  asn := 0
  region := 0

/-- One server is inserted. -/
theorem ketama_hash_along_one :
    ∃ s, new.run (insertionStd murmurHash) [.insert (light (ascii "a"))] = .ok s ∧
      Serves murmurHash s := by
  obtain ⟨s, hrun, hserves, -⟩ :=
    ketama_hash_along (insertionStd murmurHash) [.insert (light (ascii "a"))]
      (fun op hop server hserver => by
        rw [List.mem_singleton.mp hop] at hserver
        rw [List.mem_singleton.mp hserver]
        decide)
      ⟨⟨fun _ h => (by cases h), by decide⟩, fun _ _ => trivial⟩ _ [] (List.append_nil _).symm
  exact ⟨s, hrun, hserves⟩

/-- Of two servers one is removed. -/
def oneRemoved : KetamaHash :=
  (new.init (insertionStd murmurHash) [light (ascii "a"), light (ascii "b")]).1.remove
    (insertionStd murmurHash) (ascii "b")

/-- The node of the removed server leads outside `_shards`. -/
theorem removed_server_leaves_node :
    new.run (insertionStd murmurHash)
        [.init [light (ascii "a"), light (ascii "b")], .remove (ascii "b")] = .ok oneRemoved ∧
      oneRemoved.shards = [light (ascii "a")] ∧
      oneRemoved.getServerInfo murmurHash (ascii "server-bnode-0") = .error .outOfBounds ∧
      ¬ Serves murmurHash oneRemoved := by
  have hshards : oneRemoved.shards = [light (ascii "a")] := by decide +kernel
  have hget : oneRemoved.getServerInfo murmurHash (ascii "server-bnode-0") =
      .error .outOfBounds := by decide +kernel
  refine ⟨rfl, hshards, hget, fun h => ?_⟩
  have hne : oneRemoved.shards ≠ [] := by
    rw [hshards]
    exact List.cons_ne_nil _ _
  obtain ⟨server, -, hfound⟩ := h.present hne (ascii "server-bnode-0")
  rw [hget] at hfound
  cases hfound

end KetamaHash

end RtcMcu.Util
