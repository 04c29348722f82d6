import EventBus.Bus

/-!
# Constructing a bus call by call
-/

namespace EventBus.Scenario

inductive BuilderCall where
  | identifier (name : String)
  | dispatch (mode : DispatchMode)
  | errorSink
  | discovery

def BuilderCall.apply (b : Builder) : BuilderCall → Builder
  | identifier name => b.identifier name
  | dispatch mode => b.dispatch mode
  | errorSink => b.errorSink .ignore
  | discovery => b.withDiscovery .declared

def constructions (b : Builder) : List BuilderCall → List Builder
  | [] => [b]
  | c :: cs => b :: constructions (c.apply b) cs

def construct (b : Builder) (cs : List BuilderCall) : Builder := cs.foldl BuilderCall.apply b

end EventBus.Scenario
