import AppXd.Lib.Tokens
import AppXd.Net4g.CallbackBuffers
import AppXd.Net4g.Link

/-!
# The fields of the cell lines

The positions of the attributes in a line are counted in commas. The callbacks count the tokens of
`strtok` instead, which takes commas in a row for one. `CellsByPosition` is what the positions say,
`CellsAligned` says when the tokens give the same.
-/

namespace AppXd.Net4g

open CStr (ascii textAt tokens)

/-! ## Attributes -/

/-- A number of a record, with the position and the base of its text in the line. -/
structure CellAttr (σ : Type) where
  pos : Nat
  base : Nat
  get : σ → Int

section
variable (m : ModuleType) (srcData : List UInt8)

/-- A field that is there and is not empty. -/
def fieldAt (fields : List (List UInt8)) (i : Nat) : Option (List UInt8) :=
  fields[i]?.filter (· ≠ [])

end

/-! ## The law and its condition -/

section
variable {σ : Type} (attrs : List (CellAttr σ)) (value : Option (List UInt8))
  (fields : List (List UInt8)) (s s' : σ)

/-- At each attribute's position the token gives the number of the field; where one of them is
missing, the other one gives the number that is stored already. -/
def Aligned : Prop :=
  ∀ v ∈ value, ∀ a ∈ attrs,
    match (tokens 44 v)[a.pos]?, fieldAt fields a.pos with
    | some t, some f => CStr.strtol a.base t = CStr.number a.base f
    | some t, none => CStr.strtol a.base t = a.get s
    | none, some f => a.get s = CStr.number a.base f
    | none, none => True

end

section
variable (m : ModuleType) (srcData : List UInt8) (s : SignalInfo)

end

/-! ## The loop over the tokens -/

section
variable {σ : Type} {f : Nat → List UInt8 → σ → σ} {a : CellAttr σ}

end

/-! ## The steps of the callbacks -/

section
variable {σ : Type} {f : Nat → List UInt8 → σ → σ} {attrs : List (CellAttr σ)}

end

/-- A line without an empty field that is cut out whole is aligned, if its numbers are in the range
of `long`. -/
theorem aligned_of_full {σ : Type} (attrs : List (CellAttr σ)) {v : List UInt8} (s : σ)
    (hne : ∀ field ∈ v.splitOnP (· = 44), field ≠ [])
    (hrange : ∀ field ∈ v.splitOnP (· = 44), ∀ a ∈ attrs, CStr.InRange a.base field) :
    Aligned attrs (some v) (v.splitOnP (· = 44)) s := by
  have htokens : tokens 44 v = v.splitOnP (· = 44) :=
    List.filter_eq_self.2 fun field hf => decide_eq_true (hne field hf)
  rintro _ ⟨⟩ a ha
  rw [htokens]
  unfold fieldAt
  cases hfield : (v.splitOnP (· = 44))[a.pos]? with
  | none => trivial
  | some field =>
    have hkeep : (some field).filter (fun t => decide (t ≠ [])) = some field :=
      Option.filter_some_pos (decide_eq_true (hne field (List.mem_of_getElem? hfield)))
    rw [hkeep]
    exact CStr.strtol_eq_number_iff.2 (hrange field (List.mem_of_getElem? hfield) a ha)

section
variable (m : ModuleType) (srcData : List UInt8) (s : SignalInfo)

end

end AppXd.Net4g
