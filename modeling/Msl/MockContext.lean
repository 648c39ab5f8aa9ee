import Mathlib.Data.List.AList

/-! # The factory registries of the mock MSL context

`MockMslContext` (src/tests/src/main/javascript/util/MockMslContext.js) is the MSL context
the tests run against. Besides fields that are set and read back, it keeps three
registries that a test changes while it runs:

* the entity and the user authentication factories, two objects keyed by the name of the
  factory's scheme: `addEntityAuthenticationFactory` assigns the property, so a second
  factory of a scheme replaces the first, `removeEntityAuthenticationFactory` deletes it
  and `getEntityAuthenticationFactory` reads it (the user ones alike);
* the key-exchange factories, an array: `addKeyExchangeFactory` pushes,
  `getKeyExchangeFactory` returns the first factory of the scheme, and
  `removeKeyExchangeFactories` splices the array in place, stepping the index back after
  each removal so that the factory moved into the freed slot is examined too.

A factory is any value with a scheme (`scheme`), a scheme has a name (`name`), and schemes
are compared with `==`, that is by reference (`DecidableEq`). An object used as a map is an
`AList`: JavaScript keeps a new property last and `AList.insert` puts it first, which no
function here can observe, since none enumerates the properties.

The main results: the in-place loop keeps exactly the factories of the other schemes, in
their order (`removeKeyExchangeFactories_eq_filter`); over any sequence of additions and
removals the array refines a registry that keeps, per scheme, the factories added since
its last removal, oldest first, and `getKeyExchangeFactory` returns the oldest
(`getKeyExchangeFactory_oldest`); so a key-exchange factory added for a scheme that
already has one is never returned, where the authentication registries return the factory
added last (`getFactory_addFactory`). -/

namespace Msl

/-- A JavaScript object used as a map from strings: `o[k] = v`, `delete o[k]` and `o[k]` are
`AList.insert`, `AList.erase` and `AList.lookup`. -/
abbrev Dict (α : Type) := AList fun _ : String => α

/-- The registries of a `MockMslContext`, over its entity authentication (`E`), user
authentication (`U`) and key-exchange (`K`) factories. -/
structure MockMslContext (E U K : Type) where
  entityAuthFactories : Dict E
  userAuthFactories : Dict U
  keyxFactories : List K

namespace MockMslContext

/-! ### The authentication registries -/

section registry

variable {F S : Type} (scheme : F → S) (name : S → String)

/-- `this._factories[factory.scheme.name] = factory`. -/
def addFactory (o : Dict F) (factory : F) : Dict F := o.insert (name (scheme factory)) factory

/-- `delete this._factories[scheme.name]`. -/
def removeFactory (o : Dict F) (s : S) : Dict F := o.erase (name s)

/-- `this._factories[scheme.name]`. -/
def getFactory (o : Dict F) (s : S) : Option F := o.lookup (name s)

theorem getFactory_addFactory (o : Dict F) (factory : F) (s : S) :
    getFactory name (addFactory scheme name o factory) s =
      if name s = name (scheme factory) then some factory else getFactory name o s := by
  unfold getFactory addFactory
  split
  · rw [‹name s = _›, AList.lookup_insert]
  · exact AList.lookup_insert_ne ‹_›

theorem getFactory_removeFactory (o : Dict F) (s s' : S) :
    getFactory name (removeFactory name o s) s' =
      if name s' = name s then none else getFactory name o s' := by
  unfold getFactory removeFactory
  split
  · rw [‹name s' = _›, AList.lookup_erase]
  · exact AList.lookup_erase_ne ‹_›

end registry

section members

variable {E U K ES US : Type}

/-- `addEntityAuthenticationFactory`. -/
def addEntityAuthenticationFactory (scheme : E → ES) (name : ES → String)
    (ctx : MockMslContext E U K) (factory : E) : MockMslContext E U K :=
  { ctx with entityAuthFactories := addFactory scheme name ctx.entityAuthFactories factory }

/-- `removeEntityAuthenticationFactory`. -/
def removeEntityAuthenticationFactory (name : ES → String) (ctx : MockMslContext E U K)
    (s : ES) : MockMslContext E U K :=
  { ctx with entityAuthFactories := removeFactory name ctx.entityAuthFactories s }

/-- `getEntityAuthenticationFactory`. -/
def getEntityAuthenticationFactory (name : ES → String) (ctx : MockMslContext E U K) (s : ES) :
    Option E :=
  getFactory name ctx.entityAuthFactories s

/-- `addUserAuthenticationFactory`. -/
def addUserAuthenticationFactory (scheme : U → US) (name : US → String)
    (ctx : MockMslContext E U K) (factory : U) : MockMslContext E U K :=
  { ctx with userAuthFactories := addFactory scheme name ctx.userAuthFactories factory }

/-- `removeUserAuthenticationFactory`. -/
def removeUserAuthenticationFactory (name : US → String) (ctx : MockMslContext E U K)
    (s : US) : MockMslContext E U K :=
  { ctx with userAuthFactories := removeFactory name ctx.userAuthFactories s }

/-- `getUserAuthenticationFactory`. -/
def getUserAuthenticationFactory (name : US → String) (ctx : MockMslContext E U K) (s : US) :
    Option U :=
  getFactory name ctx.userAuthFactories s

end members

/-! ### The key-exchange registry -/

section keyx

variable {E U K KS : Type} [DecidableEq KS] (scheme : K → KS)

/-- `addKeyExchangeFactory`: `this._keyxFactories.push(factory)`. -/
def addKeyExchangeFactory (ctx : MockMslContext E U K) (factory : K) : MockMslContext E U K :=
  { ctx with keyxFactories := ctx.keyxFactories ++ [factory] }

/-- The loop of `removeKeyExchangeFactories` from index `i` of the array `fs`: a factory of
the scheme is spliced out and `--i` cancels the loop's `++i`, so the factory moved into slot
`i` is the next one examined. -/
def removeFrom (s : KS) (i : Nat) (fs : List K) : List K :=
  if h : i < fs.length then
    if scheme fs[i] = s then removeFrom s i (fs.eraseIdx i) else removeFrom s (i + 1) fs
  else fs
termination_by fs.length - i
decreasing_by
  all_goals simp_wf
  · rw [List.length_eraseIdx, if_pos h]; omega
  · omega

/-- `removeKeyExchangeFactories`. -/
def removeKeyExchangeFactories (ctx : MockMslContext E U K) (s : KS) : MockMslContext E U K :=
  { ctx with keyxFactories := removeFrom scheme s 0 ctx.keyxFactories }

/-- `getKeyExchangeFactory`: the first factory of the scheme, `undefined` when there is none. -/
def getKeyExchangeFactory (ctx : MockMslContext E U K) (s : KS) : Option K :=
  ctx.keyxFactories.find? fun f => scheme f = s

/-- `getKeyExchangeFactories`: the array itself. -/
def getKeyExchangeFactories (ctx : MockMslContext E U K) : List K := ctx.keyxFactories

/-- The loop leaves the slots before `i` alone and drops every factory of the scheme from
slot `i` on. -/
theorem removeFrom_eq (s : KS) (i : Nat) (fs : List K) :
    removeFrom scheme s i fs = fs.take i ++ (fs.drop i).filter fun f => scheme f ≠ s := by
  induction i, fs using removeFrom.induct scheme s with
  | case1 i fs h hs ih =>
    have hlen : (fs.take i).length = i := List.length_take_of_le h.le
    rw [removeFrom, dif_pos h, if_pos hs, ih, List.eraseIdx_eq_take_drop_succ,
      List.take_left' hlen, List.drop_left' hlen, List.drop_eq_getElem_cons h,
      List.filter_cons_of_neg (by simpa using hs)]
  | case2 i fs h hs ih =>
    rw [removeFrom, dif_pos h, if_neg hs, ih, ← List.take_concat_get' fs i h,
      List.drop_eq_getElem_cons h, List.filter_cons_of_pos (by simpa using hs),
      List.append_assoc, List.singleton_append]
  | case3 i fs h =>
    have hle : fs.length ≤ i := Nat.le_of_not_lt h
    rw [removeFrom, dif_neg h, List.take_of_length_le hle, List.drop_of_length_le hle,
      List.filter_nil, List.append_nil]

theorem removeKeyExchangeFactories_eq_filter (ctx : MockMslContext E U K) (s : KS) :
    let ctx' := removeKeyExchangeFactories scheme ctx s
    ctx'.keyxFactories = ctx.keyxFactories.filter (fun f => scheme f ≠ s) ∧
      getKeyExchangeFactory scheme ctx' s = none ∧
      ∀ s', s' ≠ s → getKeyExchangeFactory scheme ctx' s' = getKeyExchangeFactory scheme ctx s' := by
  have hfs : (removeKeyExchangeFactories scheme ctx s).keyxFactories =
      ctx.keyxFactories.filter (fun f => scheme f ≠ s) := by
    simp [removeKeyExchangeFactories, removeFrom_eq]
  refine ⟨hfs, ?_, fun s' hs' => ?_⟩
  · simp [getKeyExchangeFactory, hfs, List.find?_filter]
  · simp only [getKeyExchangeFactory, hfs, List.find?_filter]
    congr 1
    funext f
    by_cases hf : scheme f = s' <;> simp [hf, hs']

/-! ### What the array stands for

A key-exchange registry keeps, for each scheme, the factories added since the scheme was
last removed, oldest first; a lookup returns the oldest. `abstractOf` reads this off the
array, and every operation on the array moves it as the abstract operation says. -/

/-- A change a test makes to the key-exchange registry. -/
inductive KeyxOp (K KS : Type) where
  | add (factory : K)
  | remove (s : KS)

/-- The operation on the context. -/
def KeyxOp.apply (ctx : MockMslContext E U K) : KeyxOp K KS → MockMslContext E U K
  | .add f => addKeyExchangeFactory ctx f
  | .remove s => removeKeyExchangeFactories scheme ctx s

/-- The operation on the abstract registry. -/
def KeyxOp.applyAbstract (r : KS → List K) : KeyxOp K KS → KS → List K
  | .add f => Function.update r (scheme f) (r (scheme f) ++ [f])
  | .remove s => Function.update r s []

/-- The abstract registry an array stands for. -/
def abstractOf (fs : List K) (s : KS) : List K := fs.filter fun f => scheme f = s

theorem getKeyExchangeFactory_eq_head (ctx : MockMslContext E U K) (s : KS) :
    getKeyExchangeFactory scheme ctx s = (abstractOf scheme ctx.keyxFactories s).head? := by
  rw [getKeyExchangeFactory, abstractOf, List.filter_head?]

theorem abstractOf_apply (ctx : MockMslContext E U K) (op : KeyxOp K KS) :
    abstractOf scheme (op.apply scheme ctx).keyxFactories =
      op.applyAbstract scheme (abstractOf scheme ctx.keyxFactories) := by
  funext s'
  cases op with
  | add f =>
    by_cases hs : s' = scheme f
    · subst hs; simp [KeyxOp.apply, KeyxOp.applyAbstract, addKeyExchangeFactory, abstractOf]
    · simp [KeyxOp.apply, KeyxOp.applyAbstract, addKeyExchangeFactory, abstractOf, hs,
        Ne.symm hs]
  | remove s =>
    simp only [KeyxOp.apply, KeyxOp.applyAbstract, removeKeyExchangeFactories, removeFrom_eq,
      abstractOf, List.take_zero, List.drop_zero, List.nil_append, List.filter_filter]
    by_cases hs : s' = s
    · subst hs; simp
    · rw [Function.update_noteq hs]
      congr 1
      funext f
      by_cases hf : scheme f = s' <;> simp [hf, hs]

theorem abstractOf_run (ctx : MockMslContext E U K) (ops : List (KeyxOp K KS)) :
    abstractOf scheme (ops.foldl (KeyxOp.apply scheme) ctx).keyxFactories =
      ops.foldl (KeyxOp.applyAbstract scheme) (abstractOf scheme ctx.keyxFactories) := by
  induction ops generalizing ctx with
  | nil => rfl
  | cons op ops ih => rw [List.foldl_cons, List.foldl_cons, ih, abstractOf_apply]

theorem getKeyExchangeFactory_oldest (ctx : MockMslContext E U K) (ops : List (KeyxOp K KS))
    (s : KS) :
    getKeyExchangeFactory scheme (ops.foldl (KeyxOp.apply scheme) ctx) s =
      (ops.foldl (KeyxOp.applyAbstract scheme) (abstractOf scheme ctx.keyxFactories) s).head? := by
  rw [getKeyExchangeFactory_eq_head, abstractOf_run]

end keyx

/-- A second factory of a scheme is never returned: the first one stays. -/
example : getKeyExchangeFactory Prod.fst ([.add (1, 10), .add (1, 20)].foldl (KeyxOp.apply Prod.fst)
    (⟨∅, ∅, []⟩ : MockMslContext Unit Unit (Nat × Nat))) 1 = some (1, 10) := by
  decide

end MockMslContext

end Msl
