import ResolutionLog.Fixture.Parse
import ResolutionLog.Store

/-! # Settings

Settings say how the store of a replay is configured. They come from a document, in which each of them
may be left out, and a threshold given apart wins over the one in the document. -/

namespace ResolutionLog

/-- The settings of the program. -/
structure Settings where
  store : StoreConfig
deriving DecidableEq, Repr

/-- The form of a store configuration. -/
def StoreConfig.form : Form StoreConfig where
  name := "StoreConfig"
  blank := .default
  fields :=
    [.make "spill_threshold_bytes" .defaulted readCount
        fun c spillThreshold => { c with spillThreshold },
      .make "spill_dir" .defaulted (readText · |>.mapError asPath)
        fun c directory => { c with spillDirectory := some directory }]
where
  /-- A path is asked for where a text is. -/
  asPath : FormFault → FormFault
    | .wrongType found _ => .wrongType found "path string"
    | fault => fault

namespace Settings

/-- The settings that hold where nothing is said. -/
def default : Settings := ⟨.default⟩

/-- The form of settings. -/
def form : Form Settings where
  name := "Settings"
  blank := default
  fields := [.make "store" .defaulted StoreConfig.form.read fun s store => { s with store }]

/-- The settings that a document says. -/
def parse (text : String) : Except FixtureError Settings := form.parse .settings text

/-- Settings in which a threshold given apart counts. -/
def withThreshold (s : Settings) : Option Nat → Settings
  | some spillThreshold => { s with store := { s.store with spillThreshold } }
  | none => s

end Settings

end ResolutionLog
