/-
  DirichletMixture: why an operation fails.

  A fault is a cause; its wording is one function.  Three families are the
  sampler's own: a configuration that is refused, weights that cannot be sampled
  from, and a component family that returns the wrong number of components.  The
  rest are misuses of values.

  * `Degeneracy` says why a vector of weights cannot be used, and `Site` where
    in a run that was noticed;
  * `Fault` collects all causes;
  * `Fault.locate` adds the site to a fault;
  * `Fault.worded` is the fault that is left of one when it is put into words: if a
    number in them has too many digits to be written, then that is the fault;
    `Fault.refuse` is a refusal in words;
  * `Fault.kind` is the family of a fault and `Fault.message?` its wording, if
    the sampler has one for it.
-/
import DirichletMixture.Nested
import DirichletMixture.Setting

namespace DirichletMixture

/-- The configuration fields that hold whole numbers. -/
inductive IntegerField where
  | clusters
  | thin
  | burnin
  | iterations
deriving DecidableEq, Repr

def IntegerField.name : IntegerField → String
  | .clusters => "num_clusters"
  | .thin => "thin"
  | .burnin => "burnin"
  | .iterations => "num_iterations"

/-- Why a configuration is refused. -/
inductive Refusal (α : Type) where
  | notPositive (field : IntegerField) (given : Setting α)
  | negative (field : IntegerField) (given : Setting α)
  | concentration (given : Setting α)
  | threshold (given : Setting α)
  | noComponents (given : Int)
  | negativeRun (given : Int)

/-- Why a vector of weights cannot be sampled from. -/
inductive Degeneracy (α : Type) where
  /-- The weights are no vector, or an empty one. -/
  | notVector (shape : List Nat)
  | badWeight
  /-- The weights do not add up to a positive number. -/
  | badTotal (total : α)
  /-- The largest weight is not a positive number. -/
  | badMaximum (maximum : α)
  /-- The likelihoods do not add up to a positive number. -/
  | badSum (sum : α)
  /-- A cause that a component family states in its own words. -/
  | stated (text : String)

/-- Where in a run a fault was noticed, as far as known. -/
structure Site where
  /-- The iteration, from zero. -/
  iteration : Option Int
  /-- The position of the observation, from zero. -/
  observation : Option Int
deriving DecidableEq, Repr

def Site.unknown : Site := ⟨none, none⟩

/-- The parameters of a normal prior that have to be positive. -/
inductive PriorParameter where
  | precisionScale
  | shape
  | scale
deriving DecidableEq, Repr

def PriorParameter.name : PriorParameter → String
  | .precisionScale => "precision_scale"
  | .shape => "shape"
  | .scale => "scale"

/-- Why an operation fails. -/
inductive Fault (α : Type) where
  | refused (cause : Refusal α)
  | degenerate (cause : Degeneracy α) (site : Site)
  | wrongCount (expected actual : Int) (iteration : Option Int)
  | notGenerator (given : Setting α)
  | negativeSeed
  | firstShape
  | secondShape
  | noDimension (given : Int)
  | notPositive (parameter : PriorParameter) (given : α)
  /-- An observation has the wrong number of entries. -/
  | dimension (actual expected : Nat)
  | notArray
  /-- Numbers do not fit the dimension. -/
  | misshapen
  | notNumeric
  /-- There is nothing to choose from. -/
  | noChoice
  | unknownMode (given : String)
  | wrongKind
  | outOfRange
  | noRow
  | overflow
  | brokenPath
  | noFolder
  | longName
  /-- A whole number has too many digits to be written. -/
  | longNumber

inductive FaultKind where
  | configuration
  | degeneracy
  | contract
  | value
  | type
  | index
  | row
  | overflow
  | missingFile
  | system
deriving DecidableEq, Repr

def Fault.kind {α : Type} : Fault α → FaultKind
  | .refused _ => .configuration
  | .degenerate _ _ => .degeneracy
  | .wrongCount _ _ _ => .contract
  | .notGenerator _ | .wrongKind => .type
  | .outOfRange => .index
  | .noRow => .row
  | .overflow => .overflow
  | .noFolder => .missingFile
  | .longName => .system
  | _ => .value

/-- The fault with the site where it was noticed; only unusable weights have
    one. -/
def Fault.locate {α : Type} (site : Site) : Fault α → Fault α
  | .degenerate cause _ => .degenerate cause site
  | e => e

/-! ## Wording -/

section
variable {α : Type}

/-- Whether the numbers in the wording of a refusal can be written. -/
def Refusal.isWritable : Refusal α → Bool
  | .notPositive _ given | .negative _ given | .concentration given | .threshold given =>
    given.isWritable
  | .noComponents given | .negativeRun given => Decimal.isWritable given

/-- Whether the numbers in the wording of a fault can be written. -/
def Fault.isWritable : Fault α → Bool
  | .refused cause => cause.isWritable
  | .degenerate _ site =>
    site.iteration.all Decimal.isWritable && site.observation.all Decimal.isWritable
  | .wrongCount expected actual iteration =>
    Decimal.isWritable expected && Decimal.isWritable actual && iteration.all Decimal.isWritable
  | .noDimension given => Decimal.isWritable given
  | _ => true

/-- What is left of a fault that is put into words. -/
def Fault.worded (e : Fault α) : Fault α :=
  if e.isWritable then e else .longNumber

/-- A refusal in words. -/
def Fault.refuse (cause : Refusal α) : Fault α := (Fault.refused cause).worded

theorem Fault.refuse_of_not_isWritable {cause : Refusal α} (h : cause.isWritable = false) :
    Fault.refuse cause = .longNumber := by
  rw [refuse, worded, isWritable, h]
  rfl

theorem Fault.kind_refuse (cause : Refusal α) :
    (Fault.refuse cause).kind = if cause.isWritable then .configuration else .value := by
  rw [refuse, worded, isWritable]
  split <;> rfl

end

section Wording

variable {α : Type} [Written α]

def Refusal.message : Refusal α → String
  | .notPositive field given =>
    "`" ++ field.name ++ "` must be a positive integer (got " ++ given.write ++ ")."
  | .negative field given =>
    "`" ++ field.name ++ "` must be a non-negative integer (got " ++ given.write ++ ")."
  | .concentration given =>
    "`alpha0` must be a positive real (got " ++ given.write ++ ")."
  | .threshold given =>
    "`threshold` must lie in [0, 1] (got " ++ given.write ++ ")."
  | .noComponents given =>
    "`num_clusters` must be positive (got " ++ toString given ++ ")."
  | .negativeRun given =>
    "`num_iterations` must be non-negative (got " ++ toString given ++ ")."

def Degeneracy.message : Degeneracy α → String
  | .notVector shape =>
    "weights must be a non-empty vector (got shape " ++ Nested.writeShape shape ++ ")"
  | .badWeight => "weights must be non-negative and not NaN (got array)"
  | .badTotal total =>
    "weights must have a positive finite sum (got " ++ Written.shortest total ++ ")"
  | .badMaximum maximum =>
    "cannot normalize by max=" ++ Written.shortest maximum ++
      "; every component assigns zero likelihood"
  | .badSum sum =>
    "cannot normalize by sum=" ++ Written.shortest sum ++
      "; every cluster assigns zero likelihood"
  | .stated text => text

/-- A named number of a site, if it is known. -/
def Site.part (name : String) : Option Int → List String
  | none => []
  | some n => [name ++ "=" ++ toString n]

/-- What is known of a site, in parentheses after a blank. -/
def Site.write (s : Site) : String :=
  match Site.part "iteration" s.iteration ++ Site.part "observation" s.observation with
  | [] => ""
  | parts => " (" ++ ", ".intercalate parts ++ ")"

/-- The wording of a fault; none for those that the sampler leaves to the ground
    it stands on. -/
def Fault.message? : Fault α → Option String
  | .refused cause => some cause.message
  | .degenerate cause site => some (cause.message ++ site.write)
  | .wrongCount expected actual iteration =>
    some ("model distribution returned " ++ toString actual ++ " models, expected " ++
      toString expected ++
      match iteration with
      | none => ""
      | some i => " at iteration " ++ toString i)
  | .notGenerator given =>
    some ("rng must be int or np.random.Generator (got " ++ given.writeKind ++ ")")
  | .firstShape => some "a <= 0"
  | .secondShape => some "b <= 0"
  | .noDimension given => some ("`dimension` must be positive (got " ++ toString given ++ ").")
  | .notPositive parameter given =>
    some ("`" ++ parameter.name ++ "` must be positive (got " ++ Written.shortest given ++ ").")
  | .dimension actual expected =>
    some ("observation has dimension " ++ toString actual ++ ", model expects " ++
      toString expected)
  | .negativeSeed | .notArray | .misshapen | .notNumeric | .noChoice | .unknownMode _
  | .wrongKind | .outOfRange | .noRow | .overflow | .brokenPath | .noFolder | .longName
  | .longNumber => none

end Wording

end DirichletMixture
