import Mathlib.Data.String.Basic

/-! # X.509 entity authentication data

`X509AuthenticationData` of src/core/src/main/javascript/entityauth/X509AuthenticationData.js:
`init(identity, x509cert, x509chain)`, `getAuthData`, `equals`, and
`X509AuthenticationData$parse`, over the JavaScript values they handle.

* **Values.** `JsVal` is a JavaScript value as these functions see it; an object is a
  reference into the heap, and `===` compares objects by reference.  `JsVal.truthy` is
  `if (x)`.
* **Heap.** A list of objects: `X509` certificates (`hex` and `getSubjectString()`) and
  instances of `X509AuthenticationData` (their three properties).  `new` appends, so a new
  object's reference is the heap's size before it (`alloc`).
* **Wire objects.** The object `getAuthData` returns and `parse` reads is a list of
  key/value entries, read by key as `o[key]` does (`JsObject.get`).
* **Collaborators.** The certificate codec (`CryptoJS` Base64 of the hex, and
  `X509.readCertPEM`), the base class's `equals`, and `JSON.stringify` are not in the source:
  they are the fields of `Env`.

`parse_getAuthData_not_equal`: for an instance built with a certificate, and a codec that
round-trips, `parse(getAuthData())` succeeds and rebuilds the same wire object, but neither
instance `equals` the other, because `parse` builds a fresh certificate object and `equals`
compares certificates with `===`.  `parse_getAuthData_chain` gives the chain-only case, where
equality holds exactly when the certificate argument was null.  The version of the class in
src/src/main/javascript/entityauth/X509AuthenticationData.js compares identities only, and
there the round trip gives an equal instance (`CertOnly.parse_getAuthData_equal`). -/

namespace Msl

/-- A JavaScript value; `obj r` is the object at reference `r` of the heap. -/
inductive JsVal where
  | undefined
  | null
  | bool (b : Bool)
  | num (n : Int)
  | str (s : String)
  | obj (r : Nat)
deriving DecidableEq, Repr

/-- `if (x)`: JavaScript truthiness. -/
def JsVal.truthy : JsVal → Bool
  | .undefined | .null => false
  | .bool b => b
  | .num n => n != 0
  | .str s => !s.isEmpty
  | .obj _ => true

@[simp] theorem JsVal.truthy_str (s : String) : (JsVal.str s).truthy = true ↔ s ≠ "" := by
  simp [JsVal.truthy, ← String.isEmpty_iff]

/-- `x === y`: the same primitive value, or the same object. -/
def JsVal.strictEq (x y : JsVal) : Bool := decide (x = y)

/-- A JSON object: its entries, in insertion order. -/
abbrev JsObject := List (String × JsVal)

/-- `o[key]`: the value of the first entry with that key, undefined if there is none. -/
def JsObject.get (o : JsObject) (key : String) : JsVal :=
  ((o.find? (·.1 == key)).map Prod.snd).getD .undefined

namespace X509AuthenticationData

/-- The fields of an `X509` certificate the code reads: `hex` and `getSubjectString()`. -/
structure Cert where
  hex : String
  subject : String
deriving DecidableEq, Repr

/-- The properties `init` defines on an instance. -/
structure Props where
  identity : JsVal
  x509cert : JsVal
  x509chain : JsVal
deriving DecidableEq, Repr

/-- An object of the heap: an `X509` (`none` until `readCertPEM` filled it), or an instance of
`X509AuthenticationData`. -/
inductive Obj where
  | x509 (c : Option Cert)
  | authData (p : Props)
deriving DecidableEq, Repr

/-- The objects allocated so far; an object's reference is its index. -/
abbrev Heap := List Obj

/-- `new`: the heap with `o` appended, and `o`'s reference. -/
def alloc (h : Heap) (o : Obj) : Heap × Nat := (h ++ [o], h.length)

/-- The errors of `MslError` the class raises. -/
inductive MslError where
  | X509CERT_PARSE_ERROR
  | JSON_PARSE_ERROR
deriving DecidableEq, Repr

/-- What the functions throw. -/
inductive Exception where
  /-- A property or method read on the wrong kind of value. -/
  | typeError
  | mslCryptoException (e : MslError) (detail : JsVal)
  | mslEncodingException (e : MslError) (message : String)
deriving DecidableEq, Repr

/-- The collaborators the source calls and does not define. -/
structure Env where
  /-- `CryptoJS.enc.Base64.stringify(CryptoJS.enc.Hex.parse(hex))`. -/
  hexToBase64 : String → String
  /-- `new X509()` then `readCertPEM(certB64)`; `none` when it throws. -/
  readCertPEM : JsVal → Option Cert
  /-- `equals.base.call(this, that)` of `EntityAuthenticationData`. -/
  baseEquals : Nat → Nat → Bool
  /-- `JSON.stringify`. -/
  stringify : JsObject → String

/-- The certificate object `x509cert` refers to. -/
def certOf (h : Heap) : JsVal → Except Exception Cert
  | .obj r =>
    match h[r]? with
    | some (.x509 (some c)) => .ok c
    | _ => .error .typeError
  | _ => .error .typeError

/-- The properties of the instance at `r`. -/
def propsOf (h : Heap) (r : Nat) : Except Exception Props :=
  match h[r]? with
  | some (.authData p) => .ok p
  | _ => .error .typeError

/-- `new X509AuthenticationData(identity, x509cert, x509chain)`: with a certificate, the
identity is its subject. -/
def init (h : Heap) (identity x509cert x509chain : JsVal) : Except Exception (Heap × Nat) := do
  let identity ← if x509cert.truthy then (fun c => JsVal.str c.subject) <$> certOf h x509cert
    else pure identity
  pure (alloc h (.authData ⟨identity, x509cert, x509chain⟩))

/-- `getIdentity()`. -/
def getIdentity (h : Heap) (r : Nat) : Except Exception JsVal := (·.identity) <$> propsOf h r

/-- `getAuthData()`: the certificate in Base64, or else the chain, then the identity. -/
def getAuthData (env : Env) (h : Heap) (r : Nat) : Except Exception JsObject := do
  let p ← propsOf h r
  let first ←
    if p.x509cert.truthy then
      (fun c => [("x509certificate", JsVal.str (env.hexToBase64 c.hex))]) <$> certOf h p.x509cert
    else if p.x509chain.truthy then pure [("x509chain", p.x509chain)]
    else pure []
  pure (first ++ [("identity", p.identity)])

/-- `this.equals(that)` for two instances. -/
def equals (env : Env) (h : Heap) (this that : Nat) : Bool :=
  this == that ||
    match propsOf h this, propsOf h that with
    | .ok p, .ok q =>
      env.baseEquals this that && p.identity.strictEq q.identity && p.x509cert.strictEq q.x509cert &&
        p.x509chain.strictEq q.x509chain
    | _, _ => false

/-- `X509AuthenticationData$parse(x509AuthJO)`.  Two `X509` objects are allocated, as the source
does, the second one read from the certificate. -/
def parse (env : Env) (h : Heap) (jo : JsObject) : Except Exception (Heap × Nat) :=
  let certB64 := jo.get "x509certificate"
  let chain := jo.get "x509chain"
  let identity := jo.get "identity"
  if certB64.truthy then
    let (h, _) := alloc h (.x509 none)
    match env.readCertPEM certB64 with
    | none => .error (.mslCryptoException .X509CERT_PARSE_ERROR certB64)
    | some c =>
      let (h, x509) := alloc h (.x509 (some c))
      init h .null (.obj x509) .null
  else if chain.truthy then init h identity .null chain
  else .error (.mslEncodingException .JSON_PARSE_ERROR ("X.509 authdata" ++ env.stringify jo))

/-! ### Evaluating in `Except` -/

@[simp] theorem except_pure_eq_ok {ε α : Type} (a : α) : (pure a : Except ε α) = .ok a := rfl

@[simp] theorem except_ok_bind {ε α β : Type} (a : α) (f : α → Except ε β) : (Except.ok a >>= f) = f a := rfl

@[simp] theorem except_map_ok {ε α β : Type} (f : α → β) (a : α) : (f <$> Except.ok a : Except ε β) = .ok (f a) :=
  rfl

/-! ### Reading the heap -/

@[simp] theorem alloc_snd (h : Heap) (o : Obj) : (alloc h o).2 = h.length := rfl

@[simp] theorem length_alloc (h : Heap) (o : Obj) : (alloc h o).1.length = h.length + 1 := by
  simp [alloc]

@[simp] theorem getElem?_alloc_self (h : Heap) (o : Obj) : (alloc h o).1[h.length]? = some o := by
  simp [alloc]

/-- Allocating leaves every object already there in place. -/
theorem getElem?_alloc {h : Heap} {r : Nat} {o' : Obj} (hr : h[r]? = some o') (o : Obj) :
    (alloc h o).1[r]? = some o' := by
  rw [alloc, List.getElem?_append_left (List.getElem?_eq_some_iff.1 hr).1, hr]

theorem certOf_eq_ok {h : Heap} {x : JsVal} {c : Cert} :
    certOf h x = .ok c ↔ ∃ r, x = .obj r ∧ h[r]? = some (.x509 (some c)) := by
  cases x with
  | obj r =>
    simp only [certOf, JsVal.obj.injEq, exists_eq_left']
    split <;> simp_all
  | _ => simp [certOf]

theorem propsOf_eq_ok {h : Heap} {r : Nat} {p : Props} : propsOf h r = .ok p ↔ h[r]? = some (.authData p) := by
  simp only [propsOf]
  split <;> simp_all

theorem certOf_alloc {h : Heap} {x : JsVal} {c : Cert} (hc : certOf h x = .ok c) (o : Obj) :
    certOf (alloc h o).1 x = .ok c := by
  obtain ⟨r, rfl, hr⟩ := certOf_eq_ok.1 hc
  exact certOf_eq_ok.2 ⟨r, rfl, getElem?_alloc hr o⟩

theorem propsOf_alloc {h : Heap} {r : Nat} {p : Props} (hp : propsOf h r = .ok p) (o : Obj) :
    propsOf (alloc h o).1 r = .ok p :=
  propsOf_eq_ok.2 (getElem?_alloc (propsOf_eq_ok.1 hp) o)

@[simp] theorem certOf_alloc_self (h : Heap) (c : Cert) : certOf (alloc h (.x509 (some c))).1 (.obj h.length) = .ok c :=
  certOf_eq_ok.2 ⟨_, rfl, getElem?_alloc_self h _⟩

@[simp] theorem propsOf_alloc_self (h : Heap) (p : Props) : propsOf (alloc h (.authData p)).1 h.length = .ok p :=
  propsOf_eq_ok.2 (getElem?_alloc_self h _)

/-- `parse` allocates two certificates and reads into the second. -/
theorem certOf_second_x509 (h : Heap) (c : Cert) :
    certOf (alloc (alloc h (.x509 none)).1 (.x509 (some c))).1 (.obj (h.length + 1)) = .ok c := by
  simpa using certOf_alloc_self (alloc h (.x509 none)).1 c

/-- Only an object, which is truthy, can name a certificate. -/
theorem truthy_of_certOf {h : Heap} {x : JsVal} {c : Cert} (hc : certOf h x = .ok c) : x.truthy = true := by
  obtain ⟨r, rfl, -⟩ := certOf_eq_ok.1 hc
  rfl

/-! ### One lemma per function -/

theorem init_of_cert {h : Heap} {x : JsVal} {c : Cert} (hc : certOf h x = .ok c) (identity chain : JsVal) :
    init h identity x chain = .ok (alloc h (.authData ⟨.str c.subject, x, chain⟩)) := by
  simp [init, truthy_of_certOf hc, hc]

theorem init_of_falsy {x : JsVal} (hx : x.truthy = false) (h : Heap) (identity chain : JsVal) :
    init h identity x chain = .ok (alloc h (.authData ⟨identity, x, chain⟩)) := by
  simp [init, hx]

theorem getIdentity_of_props {h : Heap} {r : Nat} {p : Props} (hp : propsOf h r = .ok p) :
    getIdentity h r = .ok p.identity := by
  simp [getIdentity, hp]

theorem getAuthData_of_cert (env : Env) {h : Heap} {d : Nat} {p : Props} {c : Cert}
    (hp : propsOf h d = .ok p) (hc : certOf h p.x509cert = .ok c) :
    getAuthData env h d = .ok [("x509certificate", .str (env.hexToBase64 c.hex)), ("identity", p.identity)] := by
  simp [getAuthData, hp, truthy_of_certOf hc, hc]

theorem getAuthData_of_chain (env : Env) {h : Heap} {d : Nat} {p : Props} (hp : propsOf h d = .ok p)
    (hx : p.x509cert.truthy = false) (hch : p.x509chain.truthy = true) :
    getAuthData env h d = .ok [("x509chain", p.x509chain), ("identity", p.identity)] := by
  simp [getAuthData, hp, hx, hch]

/-- `parse` of a wire object with a certificate: the instance is built on the second of the two
certificates allocated. -/
theorem parse_of_cert (env : Env) (h : Heap) (jo : JsObject) {c : Cert}
    (hv : (jo.get "x509certificate").truthy = true) (hread : env.readCertPEM (jo.get "x509certificate") = some c) :
    parse env h jo = .ok (alloc (alloc (alloc h (.x509 none)).1 (.x509 (some c))).1
      (.authData ⟨.str c.subject, .obj (h.length + 1), .null⟩)) := by
  simp only [parse, hv, if_true, hread, alloc_snd, length_alloc]
  exact init_of_cert (certOf_second_x509 h c) _ _

theorem parse_of_chain (env : Env) (h : Heap) (jo : JsObject)
    (hv : (jo.get "x509certificate").truthy = false) (hch : (jo.get "x509chain").truthy = true) :
    parse env h jo = .ok (alloc h (.authData ⟨jo.get "identity", .null, jo.get "x509chain"⟩)) := by
  simp only [parse, hv, hch]
  exact init_of_falsy (x := .null) rfl h _ _

/-- `equals` of two distinct instances compares the base class and the three properties. -/
theorem equals_of_ne (env : Env) {h : Heap} {d e : Nat} {p q : Props} (hne : d ≠ e)
    (hp : propsOf h d = .ok p) (hq : propsOf h e = .ok q) :
    equals env h d e = (env.baseEquals d e && p.identity.strictEq q.identity &&
      p.x509cert.strictEq q.x509cert && p.x509chain.strictEq q.x509chain) := by
  simp [equals, hne, hp, hq]

/-! ### The round trip -/

section roundTrip

variable (env : Env)

/-- The codec gives back a certificate with the same hex and subject. -/
def CodecRoundTrips (c : Cert) : Prop :=
  ∃ c', env.readCertPEM (.str (env.hexToBase64 c.hex)) = some c' ∧ c'.hex = c.hex ∧
    c'.subject = c.subject

/-- An instance built with a certificate: `parse(getAuthData())` rebuilds the same wire object,
but with a fresh certificate object, which `===` tells apart from the original, so neither
instance equals the other. -/
theorem parse_getAuthData_not_equal (h : Heap) (identity x509chain : JsVal) {r : Nat} {c : Cert}
    (hc : h[r]? = some (.x509 (some c))) (hb : env.hexToBase64 c.hex ≠ "") (hcodec : CodecRoundTrips env c) :
    ∃ h1 d jo h2 e, init h identity (.obj r) x509chain = .ok (h1, d) ∧
      getAuthData env h1 d = .ok jo ∧ parse env h1 jo = .ok (h2, e) ∧
      getAuthData env h2 e = .ok jo ∧ equals env h2 d e = false ∧ equals env h2 e d = false := by
  obtain ⟨c', hread, hhex, hsub⟩ := hcodec
  have hcert : certOf h (.obj r) = .ok c := certOf_eq_ok.2 ⟨r, rfl, hc⟩
  have hr : r < h.length := (List.getElem?_eq_some_iff.1 hc).1
  -- the instance `init` builds, and the wire object it gives
  let p : Props := ⟨.str c.subject, .obj r, x509chain⟩
  let h1 := (alloc h (.authData p)).1
  have hp : propsOf h1 h.length = .ok p := propsOf_alloc_self h p
  have hget := getAuthData_of_cert env hp (certOf_alloc hcert _)
  -- the instance `parse` builds on the second certificate it allocates
  let jo : JsObject := [("x509certificate", .str (env.hexToBase64 c.hex)), ("identity", .str c.subject)]
  have hparse := parse_of_cert env h1 jo (c := c') (by simpa [jo, JsObject.get] using hb) hread
  -- the heap holding the two certificates `parse` allocates, and the instance it builds on the second
  let h2 := (alloc (alloc h1 (.x509 none)).1 (.x509 (some c'))).1
  let q : Props := ⟨.str c'.subject, .obj (h1.length + 1), .null⟩
  have hc' : certOf h2 (.obj (h1.length + 1)) = .ok c' := certOf_second_x509 h1 c'
  have hq : propsOf (alloc h2 (.authData q)).1 h2.length = .ok q := propsOf_alloc_self _ _
  have hp' : propsOf (alloc h2 (.authData q)).1 h.length = .ok p :=
    propsOf_alloc (propsOf_alloc (propsOf_alloc hp _) _) _
  have hne : h.length ≠ h2.length := by simp only [h2, h1, length_alloc]; omega
  -- the original certificate is not the fresh one
  have hfresh : r ≠ h1.length + 1 := by simp [h1]; omega
  refine ⟨h1, h.length, jo, (alloc h2 (.authData q)).1, h2.length, init_of_cert hcert _ _, hget, hparse,
    ?_, ?_, ?_⟩
  · refine (getAuthData_of_cert env hq (certOf_alloc hc' _)).trans ?_
    simp [q, jo, hhex, hsub]
  · simp [equals_of_ne env hne hp' hq, p, q, JsVal.strictEq, hfresh]
  · simp [equals_of_ne env hne.symm hq hp', p, q, JsVal.strictEq, hfresh.symm]

/-- A codec that reads a certificate's text back as its hex, with the subject "device". -/
def sampleEnv : Env :=
  ⟨id, fun v => match v with | .str s => some ⟨s, "device"⟩ | _ => none, fun _ _ => true, fun _ => ""⟩

/-- A certificate the sample codec round-trips. -/
def sampleCert : Cert := ⟨"3082", "device"⟩

theorem parse_getAuthData_not_equal_sampleCert :
    ([.x509 (some sampleCert)] : Heap)[0]? = some (.x509 (some sampleCert)) ∧
      sampleEnv.hexToBase64 sampleCert.hex ≠ "" ∧ CodecRoundTrips sampleEnv sampleCert ∧
      ∃ h1 d jo h2 e, init [.x509 (some sampleCert)] .null (.obj 0) .null = .ok (h1, d) ∧
        getAuthData sampleEnv h1 d = .ok jo ∧ parse sampleEnv h1 jo = .ok (h2, e) ∧
        getAuthData sampleEnv h2 e = .ok jo ∧ equals sampleEnv h2 d e = false ∧
        equals sampleEnv h2 e d = false :=
  have hb : sampleEnv.hexToBase64 sampleCert.hex ≠ "" := by decide
  have hcodec : CodecRoundTrips sampleEnv sampleCert := ⟨_, rfl, rfl, rfl⟩
  ⟨rfl, hb, hcodec, parse_getAuthData_not_equal sampleEnv _ .null .null rfl hb hcodec⟩

/-- An instance built with no certificate and a chain: `parse(getAuthData())` rebuilds the same
wire object, and the two instances are equal exactly when the base class says so and the
certificate argument was `null` (the instance `parse` builds holds `null` there). -/
theorem parse_getAuthData_chain (h : Heap) (identity x509cert x509chain : JsVal)
    (hx : x509cert.truthy = false) (hch : x509chain.truthy = true) :
    ∃ h1 d jo h2 e, init h identity x509cert x509chain = .ok (h1, d) ∧
      getAuthData env h1 d = .ok jo ∧ parse env h1 jo = .ok (h2, e) ∧ getAuthData env h2 e = .ok jo ∧
      equals env h2 d e = (env.baseEquals d e && decide (x509cert = .null)) ∧
      equals env h2 e d = (env.baseEquals e d && decide (x509cert = .null)) := by
  let p : Props := ⟨identity, x509cert, x509chain⟩
  let h1 := (alloc h (.authData p)).1
  have hp : propsOf h1 h.length = .ok p := propsOf_alloc_self h p
  let jo : JsObject := [("x509chain", x509chain), ("identity", identity)]
  let q : Props := ⟨identity, .null, x509chain⟩
  have hq : propsOf (alloc h1 (.authData q)).1 h1.length = .ok q := propsOf_alloc_self _ _
  have hp' : propsOf (alloc h1 (.authData q)).1 h.length = .ok p := propsOf_alloc hp _
  have hne : h.length ≠ h1.length := by simp [h1]
  refine ⟨h1, h.length, jo, (alloc h1 (.authData q)).1, h1.length, init_of_falsy hx _ _ _,
    getAuthData_of_chain env hp hx hch, parse_of_chain env h1 jo (by simp [jo, JsObject.get, JsVal.truthy]) hch,
    getAuthData_of_chain env hq rfl hch, ?_, ?_⟩
  · simp [equals_of_ne env hne hp' hq, p, q, JsVal.strictEq]
  · simp [equals_of_ne env hne.symm hq hp', p, q, JsVal.strictEq, eq_comm]

/-- The chain "chain" with identity "id" and a null certificate. -/
theorem parse_getAuthData_chain_sample :
    JsVal.null.truthy = false ∧ (JsVal.str "chain").truthy = true ∧
      ∃ h1 d jo h2 e, init [] (.str "id") .null (.str "chain") = .ok (h1, d) ∧
        getAuthData sampleEnv h1 d = .ok jo ∧ parse sampleEnv h1 jo = .ok (h2, e) ∧
        getAuthData sampleEnv h2 e = .ok jo ∧
        equals sampleEnv h2 d e = (sampleEnv.baseEquals d e && decide (JsVal.null = .null)) ∧
        equals sampleEnv h2 e d = (sampleEnv.baseEquals e d && decide (JsVal.null = .null)) :=
  have hch : (JsVal.str "chain").truthy = true := by decide
  ⟨rfl, hch, parse_getAuthData_chain sampleEnv [] (.str "id") .null (.str "chain") rfl hch⟩

end roundTrip

/-! ### What `parse` does with a wire object -/

/-- Every wire object meets one of four outcomes: neither a truthy certificate nor a truthy
chain gives `JSON_PARSE_ERROR`; a truthy certificate that does not decode gives
`X509CERT_PARSE_ERROR`; one that decodes gives an instance identified by its subject; a truthy
chain alone gives an instance whose identity is the object's `identity`, whatever value that
is. -/
theorem parse_outcomes (env : Env) (h : Heap) (jo : JsObject) :
    ((jo.get "x509certificate").truthy = false ∧ (jo.get "x509chain").truthy = false ∧
        parse env h jo = .error (.mslEncodingException .JSON_PARSE_ERROR ("X.509 authdata" ++ env.stringify jo))) ∨
      ((jo.get "x509certificate").truthy = true ∧ env.readCertPEM (jo.get "x509certificate") = none ∧
        parse env h jo = .error (.mslCryptoException .X509CERT_PARSE_ERROR (jo.get "x509certificate"))) ∨
      (∃ c h' e, (jo.get "x509certificate").truthy = true ∧ env.readCertPEM (jo.get "x509certificate") = some c ∧
        parse env h jo = .ok (h', e) ∧ getIdentity h' e = .ok (.str c.subject)) ∨
      (∃ h' e, (jo.get "x509certificate").truthy = false ∧ (jo.get "x509chain").truthy = true ∧
        parse env h jo = .ok (h', e) ∧ getIdentity h' e = .ok (jo.get "identity")) := by
  cases hc : (jo.get "x509certificate").truthy with
  | false =>
    cases hch : (jo.get "x509chain").truthy with
    | false => exact .inl ⟨rfl, rfl, by simp [parse, hc, hch]⟩
    | true =>
      exact .inr (.inr (.inr ⟨_, _, rfl, rfl, parse_of_chain env h jo hc hch,
        getIdentity_of_props (propsOf_alloc_self _ _)⟩))
  | true =>
    cases hr : env.readCertPEM (jo.get "x509certificate") with
    | none => exact .inr (.inl ⟨rfl, rfl, by simp [parse, hc, hr]⟩)
    | some c =>
      exact .inr (.inr (.inl ⟨c, _, _, rfl, rfl, parse_of_cert env h jo hc hr,
        getIdentity_of_props (propsOf_alloc_self _ _)⟩))

/-- The wire object `{x509chain: "chain"}`, a chain with no identity, is accepted, and the
instance's identity is undefined. -/
theorem parse_outcomes_chainOnly :
    ∃ h' e, parse sampleEnv [] [("x509chain", .str "chain")] = .ok (h', e) ∧ getIdentity h' e = .ok .undefined := by
  rcases parse_outcomes sampleEnv [] [("x509chain", .str "chain")] with ⟨-, hch, -⟩ | ⟨hc, -⟩ |
    ⟨_, _, _, hc, -⟩ | ⟨h', e, -, -, hp, hid⟩
  · exact absurd hch (by decide)
  · exact absurd hc (by decide)
  · exact absurd hc (by decide)
  · exact ⟨h', e, hp, hid⟩

/-! ### Serializing a parsed instance again -/

/-- For every wire object `parse` accepts, serializing the instance it builds gives a wire object
that `parse` accepts again and that serializes to itself: after one round, `getAuthData` and
`parse` are stable.  With a certificate this needs a codec that reads the certificate's text
back to the same hex and subject, and a non-empty text. -/
theorem getAuthData_parse_stable (env : Env) (h : Heap) (jo : JsObject) {r : Heap × Nat}
    (hp : parse env h jo = .ok r)
    (hcodec : ∀ c, env.readCertPEM (jo.get "x509certificate") = some c →
      CodecRoundTrips env c ∧ env.hexToBase64 c.hex ≠ "") :
    ∃ jo1 r', getAuthData env r.1 r.2 = .ok jo1 ∧ parse env r.1 jo1 = .ok r' ∧ getAuthData env r'.1 r'.2 = .ok jo1 := by
  cases hc : (jo.get "x509certificate").truthy with
  | false =>
    cases hch : (jo.get "x509chain").truthy with
    | false => simp [parse, hc, hch] at hp
    | true =>
      rw [parse_of_chain env h jo hc hch] at hp
      obtain rfl := Except.ok.inj hp
      -- the wire object of the instance `parse` built, and the instance `parse` builds from it
      let jo1 : JsObject := [("x509chain", jo.get "x509chain"), ("identity", jo.get "identity")]
      have hch' : (jo1.get "x509chain").truthy = true := by simpa [jo1, JsObject.get] using hch
      have hp2 := propsOf_alloc_self (alloc h (.authData ⟨jo.get "identity", .null, jo.get "x509chain"⟩)).1
        ⟨jo1.get "identity", .null, jo1.get "x509chain"⟩
      refine ⟨jo1, _, getAuthData_of_chain env (propsOf_alloc_self _ _) rfl hch,
        parse_of_chain env _ _ (by simp [jo1, JsObject.get, JsVal.truthy]) hch', ?_⟩
      exact (getAuthData_of_chain env hp2 rfl hch').trans (by simp [jo1, JsObject.get])
  | true =>
    cases hr : env.readCertPEM (jo.get "x509certificate") with
    | none => simp [parse, hc, hr] at hp
    | some c =>
      rw [parse_of_cert env h jo hc hr] at hp
      obtain rfl := Except.ok.inj hp
      obtain ⟨⟨c', hread, hhex, hsub⟩, hb⟩ := hcodec c hr
      -- the instance `parse` built, on the second certificate it allocated
      have hcert := certOf_second_x509 h c
      have hp1 := propsOf_alloc_self (alloc (alloc h (.x509 none)).1 (.x509 (some c))).1
        ⟨.str c.subject, .obj (h.length + 1), .null⟩
      let jo1 : JsObject := [("x509certificate", .str (env.hexToBase64 c.hex)), ("identity", .str c.subject)]
      refine ⟨jo1, _, getAuthData_of_cert env hp1 (certOf_alloc hcert _),
        parse_of_cert env _ jo1 (c := c') (by simpa [jo1, JsObject.get] using hb) (by simpa [jo1, JsObject.get] using hread), ?_⟩
      refine (getAuthData_of_cert env (propsOf_alloc_self _ _) (certOf_alloc (certOf_second_x509 _ c') _)).trans ?_
      simp [jo1, hhex, hsub]

/-- The certificate "3082", read back by the sample codec. -/
theorem getAuthData_parse_stable_sampleCert :
    parse sampleEnv [] [("x509certificate", .str "3082")] =
        .ok ([.x509 none, .x509 (some sampleCert), .authData ⟨.str "device", .obj 1, .null⟩], 2) ∧
      (∀ c, sampleEnv.readCertPEM (JsObject.get [("x509certificate", .str "3082")] "x509certificate") = some c →
        CodecRoundTrips sampleEnv c ∧ sampleEnv.hexToBase64 c.hex ≠ "") ∧
      ∃ jo1 r', getAuthData sampleEnv [.x509 none, .x509 (some sampleCert), .authData ⟨.str "device", .obj 1, .null⟩] 2 =
          .ok jo1 ∧
        parse sampleEnv [.x509 none, .x509 (some sampleCert), .authData ⟨.str "device", .obj 1, .null⟩] jo1 = .ok r' ∧
        getAuthData sampleEnv r'.1 r'.2 = .ok jo1 :=
  have hp : parse sampleEnv [] [("x509certificate", .str "3082")] =
      .ok ([.x509 none, .x509 (some sampleCert), .authData ⟨.str "device", .obj 1, .null⟩], 2) := rfl
  have hcodec : ∀ c, sampleEnv.readCertPEM (JsObject.get [("x509certificate", .str "3082")] "x509certificate") = some c →
      CodecRoundTrips sampleEnv c ∧ sampleEnv.hexToBase64 c.hex ≠ "" := fun c hc => by
    obtain rfl : sampleCert = c := Option.some.inj hc
    exact ⟨⟨_, rfl, rfl, rfl⟩, by decide⟩
  ⟨hp, hcodec, getAuthData_parse_stable sampleEnv [] _ hp hcodec⟩

/-! ### The certificate-only version

src/src/main/javascript/entityauth/X509AuthenticationData.js: `init(x509cert)` always takes the
identity from the certificate, the wire object carries only the certificate, `parse` requires it
to be a string, and `equals` compares identities with `==`.  Both identities are subject strings
there, on which `==` is `===`; the instance has no `x509chain` property, read as undefined. -/

namespace CertOnly

/-- `new X509AuthenticationData(x509cert)`. -/
def init (h : Heap) (x509cert : JsVal) : Except Exception (Heap × Nat) := do
  let c ← certOf h x509cert
  pure (alloc h (.authData ⟨.str c.subject, x509cert, .undefined⟩))

/-- `getAuthData()`: the certificate in Base64. -/
def getAuthData (env : Env) (h : Heap) (r : Nat) : Except Exception JsObject := do
  let p ← propsOf h r
  let c ← certOf h p.x509cert
  pure [("x509certificate", .str (env.hexToBase64 c.hex))]

/-- `this.equals(that)` for two instances. -/
def equals (env : Env) (h : Heap) (this that : Nat) : Bool :=
  this == that ||
    match propsOf h this, propsOf h that with
    | .ok p, .ok q => env.baseEquals this that && p.identity.strictEq q.identity
    | _, _ => false

/-- `X509AuthenticationData$parse(x509AuthJO)`. -/
def parse (env : Env) (h : Heap) (jo : JsObject) : Except Exception (Heap × Nat) :=
  match jo.get "x509certificate" with
  | .str certB64 =>
    let (h, _) := alloc h (.x509 none)
    match env.readCertPEM (.str certB64) with
    | none => .error (.mslCryptoException .X509CERT_PARSE_ERROR (.str certB64))
    | some c =>
      let (h, x509) := alloc h (.x509 (some c))
      init h (.obj x509)
  | _ => .error (.mslEncodingException .JSON_PARSE_ERROR ("X.509 authdata" ++ env.stringify jo))

theorem init_of_cert {h : Heap} {x : JsVal} {c : Cert} (hc : certOf h x = .ok c) :
    init h x = .ok (alloc h (.authData ⟨.str c.subject, x, .undefined⟩)) := by
  simp [init, hc]

theorem getAuthData_of_cert (env : Env) {h : Heap} {d : Nat} {p : Props} {c : Cert}
    (hp : propsOf h d = .ok p) (hc : certOf h p.x509cert = .ok c) :
    getAuthData env h d = .ok [("x509certificate", .str (env.hexToBase64 c.hex))] := by
  simp [getAuthData, hp, hc]

theorem equals_of_ne (env : Env) {h : Heap} {d e : Nat} {p q : Props} (hne : d ≠ e)
    (hp : propsOf h d = .ok p) (hq : propsOf h e = .ok q) :
    equals env h d e = (env.baseEquals d e && p.identity.strictEq q.identity) := by
  simp [equals, hne, hp, hq]

/-- Here the round trip gives an equal instance whenever the base class says so: only the
identities are compared, and the codec keeps the subject. -/
theorem parse_getAuthData_equal (env : Env) (h : Heap) {r : Nat} {c : Cert}
    (hc : h[r]? = some (.x509 (some c))) (hcodec : CodecRoundTrips env c) :
    ∃ h1 d jo h2 e, init h (.obj r) = .ok (h1, d) ∧ getAuthData env h1 d = .ok jo ∧
      parse env h1 jo = .ok (h2, e) ∧ getAuthData env h2 e = .ok jo ∧
      equals env h2 d e = env.baseEquals d e ∧ equals env h2 e d = env.baseEquals e d := by
  obtain ⟨c', hread, hhex, hsub⟩ := hcodec
  have hcert : certOf h (.obj r) = .ok c := certOf_eq_ok.2 ⟨r, rfl, hc⟩
  let p : Props := ⟨.str c.subject, .obj r, .undefined⟩
  let h1 := (alloc h (.authData p)).1
  have hp : propsOf h1 h.length = .ok p := propsOf_alloc_self h p
  let jo : JsObject := [("x509certificate", .str (env.hexToBase64 c.hex))]
  let h2 := (alloc (alloc h1 (.x509 none)).1 (.x509 (some c'))).1
  let q : Props := ⟨.str c'.subject, .obj (h1.length + 1), .undefined⟩
  have hc' : certOf h2 (.obj (h1.length + 1)) = .ok c' := certOf_second_x509 h1 c'
  have hq : propsOf (alloc h2 (.authData q)).1 h2.length = .ok q := propsOf_alloc_self _ _
  have hp' : propsOf (alloc h2 (.authData q)).1 h.length = .ok p :=
    propsOf_alloc (propsOf_alloc (propsOf_alloc hp _) _) _
  have hne : h.length ≠ h2.length := by simp only [h2, h1, length_alloc]; omega
  have hparse : parse env h1 jo = .ok ((alloc h2 (.authData q)).1, h2.length) := by
    simp only [parse, jo, JsObject.get, List.find?, beq_self_eq_true, Option.map_some', Option.getD_some, hread]
    simpa using init_of_cert hc'
  refine ⟨h1, h.length, jo, _, _, init_of_cert hcert, getAuthData_of_cert env hp (certOf_alloc hcert _),
    hparse, (getAuthData_of_cert env hq (certOf_alloc hc' _)).trans (by simp [jo, hhex]), ?_, ?_⟩
  · rw [equals_of_ne env hne hp' hq]
    simp [p, q, JsVal.strictEq, hsub]
  · rw [equals_of_ne env hne.symm hq hp']
    simp [p, q, JsVal.strictEq, hsub]

/-- The sample certificate. -/
theorem parse_getAuthData_equal_sampleCert :
    ([.x509 (some sampleCert)] : Heap)[0]? = some (.x509 (some sampleCert)) ∧ CodecRoundTrips sampleEnv sampleCert ∧
      ∃ h1 d jo h2 e, init [.x509 (some sampleCert)] (.obj 0) = .ok (h1, d) ∧ getAuthData sampleEnv h1 d = .ok jo ∧
        parse sampleEnv h1 jo = .ok (h2, e) ∧ getAuthData sampleEnv h2 e = .ok jo ∧
        equals sampleEnv h2 d e = sampleEnv.baseEquals d e ∧ equals sampleEnv h2 e d = sampleEnv.baseEquals e d :=
  have hcodec : CodecRoundTrips sampleEnv sampleCert := ⟨_, rfl, rfl, rfl⟩
  ⟨rfl, hcodec, parse_getAuthData_equal sampleEnv _ rfl hcodec⟩

/-- Every wire object meets one of three outcomes: a certificate that is not a string gives
`JSON_PARSE_ERROR`; a string that does not decode gives `X509CERT_PARSE_ERROR`, the empty
string included; one that decodes gives an instance identified by the certificate's subject,
which serializes to the certificate alone. -/
theorem parse_results (env : Env) (h : Heap) (jo : JsObject) :
    ((∀ v, jo.get "x509certificate" ≠ .str v) ∧
        parse env h jo = .error (.mslEncodingException .JSON_PARSE_ERROR ("X.509 authdata" ++ env.stringify jo))) ∨
      (∃ v, jo.get "x509certificate" = .str v ∧ env.readCertPEM (.str v) = none ∧
        parse env h jo = .error (.mslCryptoException .X509CERT_PARSE_ERROR (.str v))) ∨
      (∃ v c r, jo.get "x509certificate" = .str v ∧ env.readCertPEM (.str v) = some c ∧ parse env h jo = .ok r ∧
        getIdentity r.1 r.2 = .ok (.str c.subject) ∧
        getAuthData env r.1 r.2 = .ok [("x509certificate", .str (env.hexToBase64 c.hex))]) := by
  cases hv : jo.get "x509certificate" with
  | str v =>
    cases hr : env.readCertPEM (.str v) with
    | none => exact .inr (.inl ⟨v, rfl, hr, by simp [parse, hv, hr]⟩)
    | some c =>
      have hc := certOf_second_x509 h c
      have hp : parse env h jo = .ok (alloc (alloc (alloc h (.x509 none)).1 (.x509 (some c))).1
          (.authData ⟨.str c.subject, .obj (h.length + 1), .undefined⟩)) := by
        simp only [parse, hv, hr, alloc_snd, length_alloc]
        exact init_of_cert hc
      exact .inr (.inr ⟨v, c, _, rfl, hr, hp, getIdentity_of_props (propsOf_alloc_self _ _),
        getAuthData_of_cert env (propsOf_alloc_self _ _) (certOf_alloc hc _)⟩)
  | _ => exact .inl ⟨by simp, by simp [parse, hv]⟩

end CertOnly

/-! ### `equals` is an equivalence

Both versions of `equals` relate two references when they are the same, or when both name
instances that the base class's `equals` relates and whose properties agree: all three in
src/core, the identity alone in the certificate-only version (`SameOr`).  Either is then an
equivalence on references as soon as the base class's `equals` is symmetric and transitive. -/

section equivalence

variable (env : Env) (h : Heap)

/-- The same reference, or two instances that the base class's `equals` relates and whose
properties `R` relates. -/
def SameOr (R : Props → Props → Prop) (a b : Nat) : Prop :=
  a = b ∨ ∃ p q, propsOf h a = .ok p ∧ propsOf h b = .ok q ∧ env.baseEquals a b = true ∧ R p q

theorem Props.eq_iff {p q : Props} :
    p = q ↔ p.identity = q.identity ∧ p.x509cert = q.x509cert ∧ p.x509chain = q.x509chain := by
  cases p; cases q; simp

theorem equals_iff (a b : Nat) : equals env h a b = true ↔ SameOr env h (· = ·) a b := by
  by_cases hab : a = b
  · simp [equals, SameOr, hab]
  · cases hp : propsOf h a <;> cases hq : propsOf h b <;>
      simp [equals, SameOr, hab, hp, hq, JsVal.strictEq, and_assoc, ← Props.eq_iff]

theorem CertOnly.equals_iff (a b : Nat) :
    CertOnly.equals env h a b = true ↔ SameOr env h (fun p q => p.identity = q.identity) a b := by
  by_cases hab : a = b
  · simp [CertOnly.equals, SameOr, hab]
  · cases hp : propsOf h a <;> cases hq : propsOf h b <;>
      simp [CertOnly.equals, SameOr, hab, hp, hq, JsVal.strictEq]

variable {env} in
theorem SameOr.equivalence {R : Props → Props → Prop} (hR : Equivalence R)
    (hsymm : ∀ a b, env.baseEquals a b = true → env.baseEquals b a = true)
    (htrans : ∀ a b c, env.baseEquals a b = true → env.baseEquals b c = true → env.baseEquals a c = true) :
    Equivalence (SameOr env h R) where
  refl _ := .inl rfl
  symm
    | .inl hab => .inl hab.symm
    | .inr ⟨p, q, hp, hq, hb, hr⟩ => .inr ⟨q, p, hq, hp, hsymm _ _ hb, hR.symm hr⟩
  trans
    | .inl hab, hbc => hab ▸ hbc
    | hab, .inl hbc => hbc ▸ hab
    | .inr ⟨p, q, hp, hq, hb, hr⟩, .inr ⟨q', r, hq', hr', hb', hr2⟩ => by
      obtain rfl : q = q' := Except.ok.inj (hq.symm.trans hq')
      exact .inr ⟨p, r, hp, hr', htrans _ _ _ hb hb', hR.trans hr hr2⟩

end equivalence

/-- Both versions of `equals` are equivalences on references whenever the base class's `equals`
is symmetric and transitive. -/
theorem equals_equivalence (env : Env) (h : Heap)
    (hsymm : ∀ a b, env.baseEquals a b = true → env.baseEquals b a = true)
    (htrans : ∀ a b c, env.baseEquals a b = true → env.baseEquals b c = true → env.baseEquals a c = true) :
    Equivalence (fun a b => equals env h a b = true) ∧
      Equivalence (fun a b => CertOnly.equals env h a b = true) := by
  have hcore : (fun a b => equals env h a b = true) = SameOr env h (· = ·) :=
    funext fun a => funext fun b => propext (equals_iff env h a b)
  have hcert : (fun a b => CertOnly.equals env h a b = true) =
      SameOr env h (fun p q => p.identity = q.identity) :=
    funext fun a => funext fun b => propext (CertOnly.equals_iff env h a b)
  rw [hcore, hcert]
  exact ⟨SameOr.equivalence h ⟨Eq.refl, Eq.symm, Eq.trans⟩ hsymm htrans,
    SameOr.equivalence h ⟨fun _ => rfl, Eq.symm, Eq.trans⟩ hsymm htrans⟩

/-- The sample codec's base class relates every pair. -/
theorem equals_equivalence_sampleEnv :
    (∀ a b, sampleEnv.baseEquals a b = true → sampleEnv.baseEquals b a = true) ∧
      (∀ a b c, sampleEnv.baseEquals a b = true → sampleEnv.baseEquals b c = true →
        sampleEnv.baseEquals a c = true) ∧
      Equivalence (fun a b => equals sampleEnv [.x509 (some sampleCert)] a b = true) ∧
      Equivalence (fun a b => CertOnly.equals sampleEnv [.x509 (some sampleCert)] a b = true) :=
  ⟨fun _ _ _ => rfl, fun _ _ _ _ _ => rfl,
    equals_equivalence sampleEnv [.x509 (some sampleCert)] (fun _ _ _ => rfl) (fun _ _ _ _ _ => rfl)⟩

/-! ### Reading the older wire format -/

/-- Every wire object the certificate-only version accepts, the version of src/core accepts too,
unless its certificate is the empty string, which src/core reads as absent: the two instances
have the same identity, and src/core serializes its instance as the certificate-only version
does, followed by the identity. -/
theorem certOnly_wire_accepted (env : Env) (h : Heap) (jo : JsObject) {r : Heap × Nat}
    (hp : CertOnly.parse env h jo = .ok r) :
    jo.get "x509certificate" = .str "" ∨
      ∃ r' jo0 id, parse env h jo = .ok r' ∧ getIdentity r.1 r.2 = .ok id ∧ getIdentity r'.1 r'.2 = .ok id ∧
        CertOnly.getAuthData env r.1 r.2 = .ok jo0 ∧ getAuthData env r'.1 r'.2 = .ok (jo0 ++ [("identity", id)]) := by
  rcases CertOnly.parse_results env h jo with ⟨-, he⟩ | ⟨v, -, -, he⟩ | ⟨v, c, r0, hv, hr, hp0, hid, hget⟩
  · simp [he] at hp
  · simp [he] at hp
  · obtain rfl : r0 = r := Except.ok.inj (hp0.symm.trans hp)
    by_cases hempty : v = ""
    · exact .inl (hempty ▸ hv)
    · have htruthy : (jo.get "x509certificate").truthy = true := by simpa [hv] using hempty
      have hcert := certOf_second_x509 h c
      refine .inr ⟨_, _, _, parse_of_cert env h jo htruthy (by rw [hv]; exact hr), hid,
        getIdentity_of_props (propsOf_alloc_self _ _), hget, ?_⟩
      exact getAuthData_of_cert env (propsOf_alloc_self _ _) (certOf_alloc hcert _)

/-- The certificate "3082" in the older format. -/
theorem certOnly_wire_accepted_sampleCert :
    CertOnly.parse sampleEnv [] [("x509certificate", .str "3082")] =
        .ok ([.x509 none, .x509 (some sampleCert), .authData ⟨.str "device", .obj 1, .undefined⟩], 2) ∧
      (JsObject.get [("x509certificate", .str "3082")] "x509certificate" = .str "" ∨
        ∃ r' jo0 id, parse sampleEnv [] [("x509certificate", .str "3082")] = .ok r' ∧
          getIdentity [.x509 none, .x509 (some sampleCert), .authData ⟨.str "device", .obj 1, .undefined⟩] 2 = .ok id ∧
          getIdentity r'.1 r'.2 = .ok id ∧
          CertOnly.getAuthData sampleEnv [.x509 none, .x509 (some sampleCert),
            .authData ⟨.str "device", .obj 1, .undefined⟩] 2 = .ok jo0 ∧
          getAuthData sampleEnv r'.1 r'.2 = .ok (jo0 ++ [("identity", id)])) :=
  have hp : CertOnly.parse sampleEnv [] [("x509certificate", .str "3082")] =
      .ok ([.x509 none, .x509 (some sampleCert), .authData ⟨.str "device", .obj 1, .undefined⟩], 2) := rfl
  ⟨hp, certOnly_wire_accepted sampleEnv [] _ hp⟩

end X509AuthenticationData

end Msl
