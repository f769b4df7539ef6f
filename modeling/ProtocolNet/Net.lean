import ProtocolNet.Engine

namespace ProtocolNet

structure Net where
  places : List Str
  transitions : TransitionTable
  mapping : Table Str Str
  initial : Marking
  seeds : Option (Table Str (List SeedRule))

namespace Net

def engine (net : Net) : Engine := ⟨net.transitions,net.initial⟩

def allPlaces (net : Net) : List Str :=
  sortedNames (net.places ++ net.initial.places ++
    net.transitions.entries.flatMap fun transition =>
      (transition.pre ++ transition.post).map (·.place))

end Net

end ProtocolNet
