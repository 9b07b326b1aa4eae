import Mathlib.Data.List.AList
import GateServer.Singleton

/-!
# The configuration

`config.ini` is read into a property tree, from which the entries of each section are
copied into one map and the sections into another.
-/

namespace GateServer

/-- `boost::property_tree::ptree`: a text, and subtrees in the order of the file. -/
inductive Ptree
  | node (data : String) (children : List (String × Ptree))

namespace Ptree

def data : Ptree → String
  | node data _ => data

def children : Ptree → List (String × Ptree)
  | node _ children => children

end Ptree

/-- Assignment of the pairs to a `std::map`, in order. -/
def assignAll [DecidableEq α] (m : AList fun _ : α => β) (pairs : List (α × β)) :
    AList fun _ : α => β :=
  pairs.foldl (fun m pair => m.insert pair.1 pair.2) m

structure SectionInfo where
  sectionDatas : AList fun _ : String => String

/-- `operator[]`. -/
def SectionInfo.get (info : SectionInfo) (key : String) : String :=
  (info.sectionDatas.lookup key).getD ""

structure ConfiMgr where
  configMap : AList fun _ : String => SectionInfo

namespace ConfiMgr

/-- `operator[]`. -/
def get (cfg : ConfiMgr) (sectionName : String) : SectionInfo :=
  (cfg.configMap.lookup sectionName).getD ⟨∅⟩

def sectionInfo (sectionTree : Ptree) : SectionInfo where
  sectionDatas := assignAll ∅ (sectionTree.children.map fun (key, value) => (key, value.data))

/-- The constructor, after `read_ini`. -/
def ofPtree (pt : Ptree) : ConfiMgr where
  configMap := assignAll ∅ (pt.children.map fun (name, tree) => (name, sectionInfo tree))

def config (cfg : ConfiMgr) : Singleton.Config :=
  fun sectionName key => (cfg.get sectionName).get key

end ConfiMgr
end GateServer
