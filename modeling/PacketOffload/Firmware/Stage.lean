/-!
# Stages of a firmware load

A load goes through its stages in a fixed order; the progress of a context is known from the stages
that were completed. `LoadStage.progress` is the progress of a context whose load stopped in a
stage.

| here | operation |
| --- | --- |
| `activity` | the words for a stage in the text of a failed load |
| `progress` | the state that `load_image` has recorded when the stage begins |
-/

namespace PacketOffload

/-- The stages of a firmware load, in their order. -/
inductive LoadStage where
  | reset
  | writeSections
  | enableFetch
  | disableHandlers
  | programHandlers
  | programApertures
  | enable
  deriving DecidableEq, Repr

/-- How far a context has come. -/
inductive LoadState where
  | unloaded
  | fetchDisabled
  | sectionsWritten
  | handlersProgrammed
  | enabled
  deriving DecidableEq, Repr, Inhabited

def LoadStage.activity : LoadStage → String
  | .reset => "resetting the cluster"
  | .writeSections => "writing firmware sections"
  | .enableFetch => "enabling instruction fetch"
  | .disableHandlers => "disabling handler execution"
  | .programHandlers => "programming handler stages"
  | .programApertures => "programming memory apertures"
  | .enable => "enabling the context"

/-- The progress of a context whose load stopped in a stage. -/
def LoadStage.progress : LoadStage → LoadState
  | .reset => .unloaded
  | .writeSections => .fetchDisabled
  | .enableFetch | .disableHandlers | .programHandlers | .programApertures => .sectionsWritten
  | .enable => .handlersProgrammed

end PacketOffload
