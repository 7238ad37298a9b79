import EarlyBoot.DeviceTree.Node

set_option autoImplicit false

namespace EarlyBoot.DeviceTree

def pathComponents? (path : String) : Option (List String) :=
  match path.toList with
  | '/' :: rest => some (((rest.splitOn '/').filter (· ≠ [])).map String.ofList)
  | _ => none

def Node.child? (node : Node) (component : String) : Option Node :=
  node.children.find? fun child => child.matchesComponent component

def findNode? (tree : DeviceTree) (path : String) : Option Node := do
  let components ← pathComponents? path
  let root ← tree.root?
  components.foldlM Node.child? root

end EarlyBoot.DeviceTree
