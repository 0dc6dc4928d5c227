import Cordon.Hook.Managed
import Cordon.Settings
import Cordon.World
/-!
The objects that a process has once: its settings, a store, an engine over it, a table of native hooks,
managed hooks, and a life cycle. The first use of the life cycle makes the others effective.
-/
namespace Cordon

structure Global where
  settings : Settings
  store : StoreId
  table : TableId
  hooks : ManagedHooks := {}
  /-- Whether the life cycle has been used. -/
  started : Bool := false

namespace Global

variable {ε : Type}

/-- Threads that the settings name as the harness's do not take the fallback of the store. -/
def create (settings : Settings) (w : World ε) : Global × World ε :=
  let starts := settings.engine.harnessThreadPrefixes
  let harness := if starts.isEmpty then Classifier.noHarness else Classifier.names starts
  let (store, w) := w.onStores (·.create harness)
  let (table, w) := w.newTable { debug := settings.native.debug }
  ({ settings, store, table }, w)

def engine (g : Global) : Engine := .ofSettings g.store g.settings.engine

def lifecycle (g : Global) : Lifecycle := ⟨g.store, g.settings.defaults⟩

/-- Registers the engine and installs the managed hooks, once. -/
def start (g : Global) (w : World ε) : Global × World ε :=
  if g.started then (g, w)
  else
    ({ g with started := true, hooks := g.hooks.install },
      { w with registered := some (.engine g.engine) })

/-- Installs the native hooks of the table. -/
def installTable (g : Global) (w : World ε) : World ε :=
  w.setTable g.table (w.table g.table).install.2

end Global
end Cordon
