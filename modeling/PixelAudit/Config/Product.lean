/-
The configuration of a product: the parameter that carries its version with the least version expected to conform,
whether letters are folded, and the variants of experiments that run.
-/
import PixelAudit.Schema.Context

namespace PixelAudit

/-- the parameter that carries the version, and the least version expected to conform -/
structure ProductTarget where
  key : String
  version : Option AppVersion := none
  deriving DecidableEq, Inhabited

namespace ProductTarget

def form : Form ProductTarget where
  title := "TargetConfig"
  blank := { key := "" }
  fields := [
    (Field.of "key" .string fun v t => { t with key := v }).needed,
    Field.of "version" (.optional AppVersion.decoder) fun v t => { t with version := v }]
  closed := false

def toJson (t : ProductTarget) : Json :=
  .object [("key", .string t.key), ("version", (t.version.map AppVersion.toJson).getD .null)]

end ProductTarget

/-- the variants of an experiment that run -/
structure ProductExperiment where
  variants : List String := []
  deriving DecidableEq, Inhabited

namespace ProductExperiment

def form : Form ProductExperiment where
  title := "ExperimentConfig"
  blank := {}
  fields := [Field.of "variants" (.list .string) fun v e => { e with variants := v }]
  closed := false

def toJson (e : ProductExperiment) : Json := .object [("variants", Json.strings e.variants)]

end ProductExperiment

structure Product where
  target : Option ProductTarget := none
  forceLowerCase : Bool := false
  searchExperiments : Dict ProductExperiment := ∅
  nativeExperiments : Dict ProductExperiment := ∅
  deriving DecidableEq, Inhabited

namespace Product

def form : Form Product where
  title := "ProductConfig"
  blank := {}
  fields := [
    Field.of "target" (.optional ProductTarget.form.decoder) fun v p => { p with target := v },
    Field.of "forceLowerCase" .bool fun v p => { p with forceLowerCase := v },
    Field.of "searchExperiments" (.table ProductExperiment.form.decoder) fun v p => { p with searchExperiments := v },
    Field.of "nativeExperiments" (.table ProductExperiment.form.decoder) fun v p => { p with nativeExperiments := v }]
  closed := false

def decoder : Decoder Product := form.decoder

def experimentsJson (experiments : Dict ProductExperiment) : Json :=
  .object (experiments.entries.map fun (id, e) => (id, e.toJson))

def toJson (p : Product) : Json :=
  .object [
    ("target", (p.target.map ProductTarget.toJson).getD .null),
    ("forceLowerCase", .bool p.forceLowerCase),
    ("searchExperiments", experimentsJson p.searchExperiments),
    ("nativeExperiments", experimentsJson p.nativeExperiments)]

/-- let the variants of one experiment run -/
def enableAll (running : Experiments) (id : String) (e : ProductExperiment) : Experiments :=
  e.variants.foldl (fun running variant => running.enable id variant) running

/-- the variants that run, of search and of native experiments -/
def experiments (p : Product) : Experiments :=
  (p.searchExperiments.entries ++ p.nativeExperiments.entries).foldl (fun running (id, e) => enableAll running id e) ∅

/-- the parameter that carries the version -/
def versionKey (p : Product) : Option String := p.target.map ProductTarget.key

def minVersion (p : Product) : Option AppVersion := p.target.bind ProductTarget.version

end Product

end PixelAudit
