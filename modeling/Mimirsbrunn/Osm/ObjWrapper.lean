import Mathlib.Data.Prod.Lex
import Mathlib.Order.Lattice.Nat
import Mimirsbrunn.Places.Admin

namespace Mimirsbrunn
open Regex Std

inductive OsmId where
  | node (id : Int)
  | way (id : Int)
  | relation (id : Int)
  deriving DecidableEq, Repr

namespace OsmId

def rank : OsmId → Nat ×ₗ Int
  | .node id => toLex (0, id)
  | .way id => toLex (1, id)
  | .relation id => toLex (2, id)

theorem rank_injective : Function.Injective rank := by
  intro a b h
  cases a <;> cases b <;> simp_all [rank]

instance : LinearOrder OsmId := LinearOrder.lift' rank rank_injective

def isWay : OsmId → Bool
  | .way _ => true
  | _ => false

theorem way_le {a b : Int} : OsmId.way a ≤ .way b ↔ a ≤ b := by
  change rank (.way a) ≤ rank (.way b) ↔ a ≤ b
  simp [rank, Prod.Lex.toLex_le_toLex]

end OsmId

abbrev Tags := TreeMap Text Text

def Tags.name (tags : Tags) : Option Text := tags["name".toList]?

structure Node where
  id : Int
  tags : Tags
  decimicro_lat : Int
  decimicro_lon : Int

def Node.coord (node : Node) : Coord := ⟨node.decimicro_lon, node.decimicro_lat⟩

structure Way where
  id : Int
  tags : Tags
  nodes : List Int

structure Ref where
  member : OsmId
  role : Text
  deriving DecidableEq, Repr

structure Relation where
  id : Int
  tags : Tags
  refs : List Ref

inductive OsmObj where
  | node (node : Node)
  | way (way : Way)
  | relation (relation : Relation)

namespace OsmObj

def id : OsmObj → OsmId
  | .node n => .node n.id
  | .way w => .way w.id
  | .relation r => .relation r.id

def asNode : OsmObj → Option Node
  | .node n => some n
  | _ => none

def asWay : OsmObj → Option Way
  | .way w => some w
  | _ => none

theorem asWay_eq_some {obj : OsmObj} {w : Way} : obj.asWay = some w ↔ obj = .way w := by
  cases obj <;> simp [asWay]

theorem id_of_asWay {obj : OsmObj} {w : Way} (h : obj.asWay = some w) : obj.id = .way w.id := by
  rw [asWay_eq_some.mp h, id]

def asRelation : OsmObj → Option Relation
  | .relation r => some r
  | _ => none

theorem id_of_asRelation {obj : OsmObj} {r : Relation} (h : obj.asRelation = some r) :
    obj.id = .relation r.id := by
  cases obj <;> simp_all [asRelation, id]

end OsmObj

structure ObjWrapper where
  objs : List OsmObj
  nodup : (objs.map OsmObj.id).Nodup

namespace ObjWrapper

def get (m : ObjWrapper) (key : OsmId) : Option OsmObj := m.objs.find? (fun obj => obj.id = key)

def ways (m : ObjWrapper) : List Way := m.objs.filterMap OsmObj.asWay

def relations (m : ObjWrapper) : List Relation := m.objs.filterMap OsmObj.asRelation

variable {m : ObjWrapper} {obj : OsmObj} {way : Way}

theorem get_eq_some {key : OsmId} : m.get key = some obj ↔ obj ∈ m.objs ∧ obj.id = key := by
  constructor
  · intro h
    rw [get] at h
    exact ⟨List.mem_of_find?_eq_some h, by simpa using List.find?_some h⟩
  · rintro ⟨hm, rfl⟩
    cases hf : m.get obj.id with
    | none =>
        rw [get] at hf
        simpa using List.find?_eq_none.mp hf obj hm
    | some found =>
        rw [get] at hf
        have hid : found.id = obj.id := by simpa using List.find?_some hf
        rw [List.inj_on_of_nodup_map m.nodup (List.mem_of_find?_eq_some hf) hm hid]

theorem mem_ways : way ∈ m.ways ↔ .way way ∈ m.objs := by
  simp only [ways, List.mem_filterMap]
  constructor
  · rintro ⟨obj, hm, hw⟩
    cases obj <;> simp_all [OsmObj.asWay]
  · exact fun h => ⟨_, h, rfl⟩

theorem mem_relations {rel : Relation} : rel ∈ m.relations ↔ .relation rel ∈ m.objs := by
  simp only [relations, List.mem_filterMap]
  constructor
  · rintro ⟨obj, hm, hw⟩
    cases obj <;> simp_all [OsmObj.asRelation]
  · exact fun h => ⟨_, h, rfl⟩

theorem get_way (h : way ∈ m.ways) : m.get (.way way.id) = some (.way way) :=
  get_eq_some.mpr ⟨mem_ways.mp h, rfl⟩

theorem way_mem_of_get {key : OsmId} (h : m.get key = some obj) (hw : obj.asWay = some way) :
    way ∈ m.ways := by
  rw [OsmObj.asWay_eq_some.mp hw] at h
  exact mem_ways.mpr (get_eq_some.mp h).1

theorem ways_ext {way' : Way} (h : way ∈ m.ways) (h' : way' ∈ m.ways) (hid : way.id = way'.id) :
    way = way' := by
  have he := (get_way h).symm.trans ((congrArg (fun i => m.get (.way i)) hid).trans (get_way h'))
  simpa using he

end ObjWrapper

def getWayCoord (obj_map : ObjWrapper) (way : Way) : Coord :=
  ((way.nodes.drop (way.nodes.length / 2)).findSome? (fun node_id =>
    (obj_map.get (.node node_id)).bind (fun obj => obj.asNode.map Node.coord))).getD default

end Mimirsbrunn
