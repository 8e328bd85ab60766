import PackageCoupling.Graph.Grow
import PackageCoupling.Graph.Substitute

namespace PackageCoupling.Graph

inductive Op where
  | ensurePackage (name : String)
  | newType (kind : TypeKind) (name package : String)
  | newFunction (name package : String)
  | newMethod (name : String)
  | relocate (type : TypeId) (package : String)
  | attachMethod (owner : TypeId) (method : CallableId)
  | newParameter (callable : CallableId) (name : String) (type : Option TypeId)
  | newProperty (owner : TypeId) (name : String) (type : Option TypeId)
  | newConstant (owner : TypeId) (name : String)
  | setConstantTarget (constant : ConstantId) (target : TypeId)
  | setTypeModifiers (type : TypeId) (modifiers : Modifiers)
  | setCallableModifiers (callable : CallableId) (modifiers : Modifiers)
  | setPropertyModifiers (property : PropertyId) (modifiers : Modifiers)
  | setLocation (node : NodeRef) (location : Location)
  | connect (source target : TypeId)
  | disconnect (source target : TypeId)
  | setParent (type parent : TypeId)
  | addInterface (type interface : TypeId)
  | addUse (callable : CallableId) (target : TypeId)
  | addException (callable : CallableId) (target : TypeId)
  | setReturnType (callable : CallableId) (target : Option TypeId)
  | substitute (old new : TypeId)
  | eraseType (type : TypeId)
deriving DecidableEq, Repr

inductive Outcome where
  | done
  | flag (value : Bool)
  | count (value : Nat)
  | node (node : NodeRef)
  | place (package : Option PackageId)
  | erased (type : TypeDecl)
deriving DecidableEq, Repr

namespace Op

def run : Op → Edit Outcome
  | ensurePackage name            => return .node (← modifyGet (·.ensurePackage name)).ref
  | newType kind name package     => return .node (← modifyGet (·.newType kind name package)).ref
  | newFunction name package      => return .node (← modifyGet (·.newFunction name package)).ref
  | newMethod name                => return .node (← modifyGet (·.newMethod name)).ref
  | relocate type package         => return .place (← modifyGet (·.relocate type package))
  | attachMethod owner method     => do Edit.attachMethod owner method; return .done
  | newParameter callable name type => return .node (← Edit.newParameter callable name type).ref
  | newProperty owner name type   => return .node (← Edit.newProperty owner name type).ref
  | newConstant owner name        => return .node (← Edit.newConstant owner name).ref
  | setConstantTarget constant target => do Edit.setConstantTarget constant target; return .done
  | setTypeModifiers type modifiers => do Edit.setTypeModifiers type modifiers; return .done
  | setCallableModifiers callable modifiers => do Edit.setCallableModifiers callable modifiers; return .done
  | setPropertyModifiers property modifiers => do Edit.setPropertyModifiers property modifiers; return .done
  | setLocation node location     => do Edit.setLocation node location; return .done
  | connect source target         => return .flag (← Edit.connect source target)
  | disconnect source target      => return .flag (← Edit.disconnect source target)
  | setParent type parent         => do Edit.setParent type parent; return .done
  | addInterface type interface   => do Edit.addInterface type interface; return .done
  | addUse callable target        => return .flag (← Edit.addUse callable target)
  | addException callable target  => return .flag (← Edit.addException callable target)
  | setReturnType callable target => do Edit.setReturnType callable target; return .done
  | substitute old new            => return .count (← Edit.substitute old new)
  | eraseType type                => return .erased (← Edit.eraseType type)

end Op
end PackageCoupling.Graph
