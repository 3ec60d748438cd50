import Husker.Store.Schema
import Husker.Image.Reference

/-! # Pulling an image

The registry answers each request as it likes.  What a manifest names is checked against its
digest; the manifest itself is taken as it comes.
-/
namespace Husker.Image
open Relational List

abbrev Bytes := List UInt8

structure Descriptor where
  digest : Text
  size : ℕ
  deriving DecidableEq

structure Manifest where
  config : Descriptor
  layers : List Descriptor
  deriving DecidableEq

structure Platform where
  architecture : Text
  os : Text

structure IndexEntry where
  digest : Text
  platform : Option Platform

structure ManifestIndex where
  manifests : List IndexEntry

structure RawInnerConfig where
  entrypoint : Option (List String)
  cmd : Option (List String)
  env : Option (List String)
  workingDir : Option String

structure ImageConfig where
  entrypoint : List String
  cmd : List String
  env : List String
  workingDir : Option String
  deriving DecidableEq

/-- SHA-256, and what `serde_json` reads. -/
structure Tools where
  sha256 : Bytes → Bytes
  manifest : Bytes → Except String Manifest
  manifestIndex : Bytes → Except String ManifestIndex
  config : Bytes → Except String RawInnerConfig
  /-- Whether a text is an object with an array `manifests`. -/
  listsManifests : Bytes → Bool
  token : Bytes → Except String Text
  /-- The error document of a failed request, or the reason phrase of its status. -/
  registryErrorDetail : ℕ → Bytes → String

/-! ## The registry -/

structure Request where
  url : Text
  token : Text

/-- The connection fails, or there is an answer, whose body comes in chunks and may break off. -/
inductive Reply where
  | failed (message : String)
  | answer (status : ℕ) (contentType : Option String) (chunks : List Bytes) (broken : Option String)

abbrev Registry := ℕ → Request → Reply

structure Progress where
  requests : ℕ := 0
  used : ℕ := 0

abbrev Pull := StateT Progress (Except OciError)

structure Answer where
  status : ℕ
  contentType : Option String
  chunks : List Bytes
  broken : Option String

section
variable (tools : Tools) (registry : Registry)

def send (request : Request) : Pull Answer := do
  let progress ← get
  set { progress with requests := progress.requests + 1 }
  match registry progress.requests request with
  | .failed message => throw (.http message)
  | .answer status contentType chunks broken => return ⟨status, contentType, chunks, broken⟩

def readBody (max : ℕ) (what : String) (broken : Option String) : Bytes → List Bytes → Except OciError Bytes
  | body, [] =>
    match broken with
    | some message => .error (.http message)
    | none => .ok body
  | body, chunk :: chunks =>
    if body.length + chunk.length > max then
      .error (.malformed (what ++ " larger than " ++ toString max ++ " bytes"))
    else readBody max what broken (body ++ chunk) chunks

def maxTokenBytes : ℕ := 64 * 1024

def maxManifestBytes : ℕ := 4 * 1024 * 1024

def maxErrorBodyBytes : ℕ := 64 * 1024

def registryError (url : Text) (reply : Answer) : OciError :=
  let body := match readBody maxErrorBodyBytes "error body" reply.broken [] reply.chunks with
    | .ok body => body
    | .error _ => []
  .status reply.status url (tools.registryErrorDetail reply.status body)

def Answer.success (reply : Answer) : Bool := 200 ≤ reply.status ∧ reply.status < 300

def parseToken (body : Bytes) : Except OciError Text :=
  (tools.token body).mapError fun e => .malformed ("token response: " ++ e)

def fetchPullToken (r : ImageReference) : Pull Text := do
  let (tokenUrl, service) := r.authEndpoint
  let url := tokenUrl ++ "?service=".toList ++ service ++ "&scope=repository:".toList ++
    r.repository ++ ":pull".toList
  let reply ← send registry ⟨url, []⟩
  if !reply.success then
    -- Without a token service the registry may be open to everyone.
    if reply.status = 404 then return [] else throw (registryError tools url reply)
  let body ← readBody maxTokenBytes "token response" reply.broken [] reply.chunks
  parseToken tools body

def getManifest (r : ImageReference) (reference token : Text) : Pull (Bytes × String) := do
  let url := r.registryBase ++ "/v2/".toList ++ r.repository ++ "/manifests/".toList ++ reference
  let reply ← send registry ⟨url, token⟩
  if !reply.success then throw (registryError tools url reply)
  let body ← readBody maxManifestBytes "manifest" reply.broken [] reply.chunks
  return (body, reply.contentType.getD "")

/-! ## Digests -/

def hexLower (bytes : Bytes) : Text := Store.hexDigits bytes

def expectedSha256 (digest : Text) : Except OciError Text :=
  match Text.stripPrefix "sha256:".toList digest with
  | some expected => .ok expected
  | none => .error (.unsupported
      ("unsupported digest algorithm (only sha256 is verified): " ++ String.ofList digest))

def verifySha256 (expected : Text) (actual : Bytes) : Except OciError Unit :=
  if hexLower actual = expected then .ok ()
  else .error (.malformed ("blob digest mismatch: expected " ++ String.ofList expected ++ ", got " ++
    String.ofList (hexLower actual)))

/-! ## Blobs -/

def maxU64 : ℕ := 2 ^ 64 - 1

def saturatingAdd (a b : ℕ) : ℕ := min (a + b) maxU64

def charge (limit bytes : ℕ) : Pull Unit := do
  let progress ← get
  let used := saturatingAdd progress.used bytes
  set { progress with used }
  if used > limit then throw (.downloadTooLarge limit)

def receive (limit : ℕ) (broken : Option String) : Bytes → List Bytes → Pull Bytes
  | sink, [] =>
    match broken with
    | some message => throw (.http message)
    | none => return sink
  | sink, chunk :: chunks => do
    charge limit chunk.length
    receive limit broken (sink ++ chunk) chunks

def downloadBlob (limit : ℕ) (r : ImageReference) (digest token : Text) : Pull Bytes := do
  let expected ← expectedSha256 digest
  let url := r.registryBase ++ "/v2/".toList ++ r.repository ++ "/blobs/".toList ++ digest
  let reply ← send registry ⟨url, token⟩
  if !reply.success then throw (registryError tools url reply)
  let blob ← receive limit reply.broken [] reply.chunks
  verifySha256 expected (tools.sha256 blob)
  return blob

/-! ## Images -/

/-- The runtime configuration, the layer files in order, and what they were found with. -/
structure PulledImage where
  config : ImageConfig
  layers : List Bytes
  reference : Text
  answer : Bytes
  /-- The digest of the entry that was chosen, if that is an index. -/
  chosen : Option Text
  manifestBytes : Bytes
  manifest : Manifest
  configBlob : Bytes
  deriving DecidableEq

def isIndex (mediaType : String) (body : Bytes) : Bool :=
  decide ("manifest.list".toList <:+: mediaType.toList) ||
    decide ("image.index".toList <:+: mediaType.toList) || tools.listsManifests body

def selectArchDigest (index : ManifestIndex) (arch : Text) : Option Text :=
  (index.manifests.find? fun e => e.platform.any fun p => p.os = "linux".toList ∧ p.architecture = arch)
    |>.map IndexEntry.digest

def parseImageConfig (blob : Bytes) : Except OciError ImageConfig :=
  match tools.config blob with
  | .error e => .error (.malformed ("config blob: " ++ e))
  | .ok raw => .ok ⟨raw.entrypoint.getD [], raw.cmd.getD [], raw.env.getD [],
      raw.workingDir.filter (· ≠ "")⟩

def parseManifest (bytes : Bytes) : Except OciError Manifest :=
  (tools.manifest bytes).mapError fun e => .malformed ("manifest: " ++ e)

def parseIndex (bytes : Bytes) : Except OciError ManifestIndex :=
  (tools.manifestIndex bytes).mapError fun e => .malformed ("manifest index: " ++ e)

def askManifest (r : ImageReference) : Pull (Text × Bytes × String) := fun progress =>
  match getManifest tools registry r r.reference [] progress with
  | .ok (answer, progress) => .ok (([], answer), progress)
  | .error (.status 401 _ _) => (do
      let token ← fetchPullToken tools registry r
      let answer ← getManifest tools registry r r.reference token
      return (token, answer)) { progress with requests := progress.requests + 1 }
  | .error e => .error e

/-- The digest chosen from an index, if the answer is one, and the manifest. -/
def resolveManifest (r : ImageReference) (arch token : Text) (body : Bytes) (mediaType : String) :
    Pull (Option Text × Bytes × Manifest) := do
  if isIndex tools mediaType body then
    let index ← parseIndex tools body
    match selectArchDigest index arch with
    | none => throw (.unsupported ("image has no linux/" ++ String.ofList arch ++ " manifest"))
    | some digest =>
      let (bytes, _) ← getManifest tools registry r digest token
      let manifest ← parseManifest tools bytes
      return (some digest, bytes, manifest)
  else
    let manifest ← parseManifest tools body
    return (none, body, manifest)

def downloadLayers (limit : ℕ) (r : ImageReference) (token : Text) : List Descriptor → Pull (List Bytes)
  | [] => return []
  | layer :: layers => do
    let blob ← downloadBlob tools registry limit r layer.digest token
    let blobs ← downloadLayers limit r token layers
    return blob :: blobs

def pull (r : ImageReference) (arch : Text) (maxDownloadBytes : ℕ) : Pull PulledImage := do
  let (token, body, mediaType) ← askManifest tools registry r
  let (chosen, bytes, manifest) ← resolveManifest tools registry r arch token body mediaType
  -- The declared sizes are the registry's claim; what arrives is charged again.
  let declared := manifest.layers.foldl (fun sum l => saturatingAdd sum l.size) manifest.config.size
  if declared > maxDownloadBytes then throw (.downloadTooLarge maxDownloadBytes)
  let configBlob ← downloadBlob tools registry maxDownloadBytes r manifest.config.digest token
  let config ← parseImageConfig tools configBlob
  let layers ← downloadLayers tools registry maxDownloadBytes r token manifest.layers
  return ⟨config, layers, r.reference, body, chosen, bytes, manifest, configBlob⟩

def pullImage (reference arch : Text) (maxDownloadBytes : ℕ) : Except OciError PulledImage := do
  let r ← ImageReference.parse reference
  let (image, _) ← pull tools registry r arch maxDownloadBytes {}
  return image

end

/-! ## What is checked -/

def Yields {α : Type} (m : Pull α) (P : α → Prop) : Prop :=
  ∀ progress a progress', m progress = .ok (a, progress') → P a

section
variable {α β : Type} {m : Pull α} {P Q : α → Prop} {a : α}

lemma Yields.pure (h : P a) : Yields (pure a) P := by
  rintro progress b progress' ⟨⟩
  exact h

lemma Yields.throw {e : OciError} : Yields (throw e : Pull α) P := nofun

lemma Yields.bind {f : α → Pull β} {R : β → Prop} (hm : Yields m P) (hf : ∀ a, P a → Yields (f a) R) :
    Yields (m >>= f) R := by
  intro progress b progress' h
  change (m progress >>= fun p => f p.1 p.2) = _ at h
  cases hrun : m progress with
  | error e =>
    rw [hrun] at h
    cases h
  | ok p =>
    rw [hrun] at h
    exact hf p.1 (hm _ _ _ hrun) p.2 b progress' h

lemma Yields.any : Yields m fun _ => True := fun _ _ _ _ => trivial

lemma Yields.lift {r : Except OciError α} (h : ∀ a, r = .ok a → P a) : Yields (liftM r : Pull α) P := by
  intro progress b progress' hrun
  cases r with
  | error e => cases hrun
  | ok a =>
    cases hrun
    exact h _ rfl

end

variable {tools : Tools} {registry : Registry} {arch token : Text} {r : ImageReference} {limit : ℕ}

def Tools.Hashes (tools : Tools) (bytes : Bytes) (digest : Text) : Prop :=
  digest = "sha256:".toList ++ hexLower (tools.sha256 bytes)

variable {digest : Text} {bytes body : Bytes}

lemma verified {expected : Text} {blob : Bytes} (hexpected : expectedSha256 digest = .ok expected)
    (hverify : verifySha256 expected (tools.sha256 blob) = .ok ()) : tools.Hashes blob digest := by
  unfold expectedSha256 at hexpected
  unfold verifySha256 at hverify
  split at hexpected <;> cases hexpected
  split at hverify
  · rename_i hstrip hhash
    rw [Tools.Hashes, hhash]
    exact Text.stripPrefix_eq_some hstrip
  · cases hverify

lemma downloadBlob_yields :
    Yields (downloadBlob tools registry limit r digest token) fun blob => tools.Hashes blob digest := by
  unfold downloadBlob
  refine .bind (.lift fun _ h => h) fun expected hexpected => ?_
  refine .bind .any fun reply _ => ?_
  have hrest : Yields (do
      let blob ← receive limit reply.broken [] reply.chunks
      verifySha256 expected (tools.sha256 blob)
      return blob) fun blob => tools.Hashes blob digest := by
    refine .bind .any fun blob _ => ?_
    refine .bind (.lift fun _ h => h) fun _ hverify => ?_
    exact .pure (verified hexpected hverify)
  split
  · exact .bind (.throw (P := fun _ => True)) fun _ _ => hrest
  · exact hrest

lemma downloadLayers_yields (layers : List Descriptor) :
    Yields (downloadLayers tools registry limit r token layers)
      fun blobs => List.Forall₂ (fun blob layer => tools.Hashes blob layer.digest) blobs layers := by
  induction layers with
  | nil => exact .pure .nil
  | cons layer layers ih =>
    rw [downloadLayers]
    refine .bind downloadBlob_yields fun blob hblob => ?_
    exact .bind ih fun blobs hblobs => .pure (.cons hblob hblobs)

structure Resolved (tools : Tools) (arch : Text) (body : Bytes) (chosen : Option Text) (bytes : Bytes)
    (manifest : Manifest) : Prop where
  parsed : tools.manifest bytes = .ok manifest
  source : match chosen with
    | none => bytes = body ∧ tools.listsManifests body = false
    | some digest => ∃ index, tools.manifestIndex body = .ok index ∧
        selectArchDigest index arch = some digest

variable {manifest : Manifest}

lemma parseManifest_ok (h : parseManifest tools bytes = .ok manifest) : tools.manifest bytes = .ok manifest := by
  unfold parseManifest at h
  cases hparse : tools.manifest bytes with
  | error e => simp [hparse, Except.mapError] at h
  | ok m => simpa [hparse, Except.mapError] using h

lemma parseIndex_ok {index : ManifestIndex}
    (h : parseIndex tools bytes = .ok index) : tools.manifestIndex bytes = .ok index := by
  unfold parseIndex at h
  cases hparse : tools.manifestIndex bytes with
  | error e => simp [hparse, Except.mapError] at h
  | ok m => simpa [hparse, Except.mapError] using h

variable {mediaType : String}

lemma isIndex_eq_false (h : isIndex tools mediaType body = false) :
    tools.listsManifests body = false := by
  unfold isIndex at h
  exact (Bool.or_eq_false_iff.mp h).2

lemma resolveManifest_yields : Yields (resolveManifest tools registry r arch token body mediaType)
      fun (chosen, bytes, manifest) => Resolved tools arch body chosen bytes manifest := by
  unfold resolveManifest
  split
  · refine .bind (.lift fun _ h => h) fun index hindex => ?_
    split
    · exact .throw
    · rename_i digest hselect
      refine .bind .any fun answer _ => ?_
      refine .bind (.lift fun _ h => h) fun manifest hmanifest => ?_
      exact .pure ⟨parseManifest_ok hmanifest, index, parseIndex_ok hindex, hselect⟩
  · have hplain := isIndex_eq_false (Bool.not_eq_true _ ▸ ‹¬isIndex tools mediaType body = true›)
    refine .bind (.lift fun _ h => h) fun manifest hmanifest => ?_
    exact .pure ⟨parseManifest_ok hmanifest, rfl, hplain⟩

structure PulledImage.Checked (tools : Tools) (arch : Text) (r : ImageReference)
    (image : PulledImage) : Prop where
  reference : image.reference = r.reference
  resolved : Resolved tools arch image.answer image.chosen image.manifestBytes image.manifest
  configBlob : tools.Hashes image.configBlob image.manifest.config.digest
  config : parseImageConfig tools image.configBlob = .ok image.config
  layers : List.Forall₂ (fun blob layer => tools.Hashes blob layer.digest) image.layers
    image.manifest.layers

lemma pull_yields : 
    Yields (pull tools registry r arch limit) (PulledImage.Checked tools arch r) := by
  unfold pull
  refine .bind .any fun ⟨token, body, mediaType⟩ _ => ?_
  refine .bind resolveManifest_yields fun ⟨chosen, bytes, manifest⟩ hresolved => ?_
  have hrest : Yields (do
      let configBlob ← downloadBlob tools registry limit r manifest.config.digest token
      let config ← parseImageConfig tools configBlob
      let layers ← downloadLayers tools registry limit r token manifest.layers
      return (⟨config, layers, r.reference, body, chosen, bytes, manifest, configBlob⟩ : PulledImage))
      (PulledImage.Checked tools arch r) := by
    refine .bind downloadBlob_yields fun configBlob hconfigBlob => ?_
    refine .bind (.lift fun _ h => h) fun config hconfig => ?_
    refine .bind (downloadLayers_yields manifest.layers) fun layers hlayers => ?_
    exact .pure ⟨rfl, hresolved, hconfigBlob, hconfig, hlayers⟩
  dsimp only
  split
  · exact .bind (.throw (P := fun _ => True)) fun _ _ => hrest
  · exact hrest

lemma pullImage_checked {reference : Text} {image : PulledImage}
    (hparse : ImageReference.parse reference = .ok r)
    (h : pullImage tools registry reference arch limit = .ok image) : image.Checked tools arch r := by
  unfold pullImage at h
  simp only [hparse, bind, Except.bind] at h
  cases hpull : pull tools registry r arch limit {} with
  | error e => simp [hpull] at h
  | ok p =>
    simp only [hpull] at h
    cases h
    exact pull_yields _ _ _ hpull

/-! ## Pinned references -/

structure PulledImage.Honest (tools : Tools) (hash : Text) (image : PulledImage) : Prop where
  answer : tools.Hashes image.answer ("sha256:".toList ++ hash)
  manifest : ∀ digest, image.chosen = some digest → tools.Hashes image.manifestBytes digest

/-- The manifest is the pinned text, or the pinned text is an index that names it by its digest; and
everything else has the digest the manifest names. -/
structure PulledImage.Pinned (tools : Tools) (arch hash : Text) (image : PulledImage) : Prop where
  chain : match image.chosen with
    | none => tools.Hashes image.manifestBytes ("sha256:".toList ++ hash)
    | some digest => tools.Hashes image.answer ("sha256:".toList ++ hash) ∧
        (∃ index, tools.manifestIndex image.answer = .ok index ∧
          selectArchDigest index arch = some digest) ∧ tools.Hashes image.manifestBytes digest
  parsed : tools.manifest image.manifestBytes = .ok image.manifest
  config : tools.Hashes image.configBlob image.manifest.config.digest ∧
    parseImageConfig tools image.configBlob = .ok image.config
  layers : List.Forall₂ (fun blob layer => tools.Hashes blob layer.digest) image.layers
    image.manifest.layers

variable {image image' : PulledImage} {hash : Text}

lemma PulledImage.Checked.pinned_iff (h : image.Checked tools arch r) :
    image.Pinned tools arch hash ↔ image.Honest tools hash := by
  have hsource := h.resolved.source
  constructor
  · intro hpinned
    have hchain := hpinned.chain
    cases hchosen : image.chosen with
    | none =>
      rw [hchosen] at hchain hsource
      exact ⟨hsource.1 ▸ hchain, fun digest hdigest => by cases hchosen.symm.trans hdigest⟩
    | some digest =>
    rw [hchosen] at hchain
    refine ⟨hchain.1, fun digest' hdigest => ?_⟩
    obtain rfl := Option.some.inj (hchosen.symm.trans hdigest)
    exact hchain.2.2
  · intro hhonest
    refine ⟨?_, h.resolved.parsed, ⟨h.configBlob, h.config⟩, h.layers⟩
    cases hchosen : image.chosen with
    | none =>
      rw [hchosen] at hsource
      exact hsource.1.symm ▸ hhonest.answer
    | some digest =>
      rw [hchosen] at hsource
      exact ⟨hhonest.answer, hsource, hhonest.manifest digest hchosen⟩

def PulledImage.received (image : PulledImage) : List Bytes :=
  image.answer :: image.manifestBytes :: image.configBlob :: image.layers

/-- An object that can be read as an index has an array `manifests`, whatever else it has. -/
def Tools.Unambiguous (tools : Tools) : Prop :=
  ∀ bytes index manifest, tools.manifestIndex bytes = .ok index → tools.manifest bytes = .ok manifest →
    tools.listsManifests bytes = true

variable {S : Set Bytes}

lemma Tools.Hashes.unique {a b : Bytes} (hsha : S.InjOn tools.sha256) (ha : a ∈ S) (hb : b ∈ S) (h : tools.Hashes a digest)
    (h' : tools.Hashes b digest) : a = b := by
  have htext : hexLower (tools.sha256 a) = hexLower (tools.sha256 b) :=
    append_cancel_left (h.symm.trans h')
  exact hsha ha hb (Store.hexDigits_injective htext)

lemma Resolved.unique {bytes' : Bytes} {chosen chosen' : Option Text}
    {manifest' : Manifest} (hserde : tools.Unambiguous)
    (h : Resolved tools arch body chosen bytes manifest)
    (h' : Resolved tools arch body chosen' bytes' manifest') : chosen = chosen' := by
  have hmixed : ∀ {bytes bytes' : Bytes} {manifest manifest' : Manifest} {digest : Text},
      Resolved tools arch body none bytes manifest →
      ¬Resolved tools arch body (some digest) bytes' manifest' := by
    rintro bytes bytes' manifest manifest' digest ⟨hparsed, rfl, hplain⟩ ⟨-, index, hindex, -⟩
    rw [hserde _ _ _ hindex hparsed] at hplain
    cases hplain
  cases chosen with
  | none =>
    cases chosen' with
    | none => rfl
    | some digest' => exact absurd h' (hmixed h)
  | some digest =>
  cases chosen' with
  | none => exact absurd h (hmixed h')
  | some digest' =>
  obtain ⟨index, hindex, hselect⟩ := h.source
  obtain ⟨index', hindex', hselect'⟩ := h'.source
  obtain rfl := Except.ok.inj (hindex.symm.trans hindex')
  exact hselect.symm.trans hselect'

lemma forall₂_unique (hsha : S.InjOn tools.sha256) {blobs blobs' : List Bytes}
    {layers : List Descriptor} (hS : ∀ b ∈ blobs, b ∈ S) (hS' : ∀ b ∈ blobs', b ∈ S)
    (h : List.Forall₂ (fun blob layer => tools.Hashes blob layer.digest) blobs layers)
    (h' : List.Forall₂ (fun blob layer => tools.Hashes blob layer.digest) blobs' layers) :
    blobs = blobs' := by
  induction h generalizing blobs' with
  | nil =>
    cases h'
    rfl
  | cons hblob _ ih =>
  cases h' with
  | cons hblob' hblobs' =>
    rw [hblob.unique hsha (hS _ mem_cons_self) (hS' _ mem_cons_self) hblob',
      ih (fun b hb => hS b (.tail _ hb))
        (fun b hb => hS' b (.tail _ hb)) hblobs']

lemma PulledImage.Honest.agree (h : image.Checked tools arch r) (h' : image'.Checked tools arch r)
    (hhonest : image.Honest tools hash) (hhonest' : image'.Honest tools hash)
    (hserde : tools.Unambiguous)
    (hsha : Set.InjOn tools.sha256 {b | b ∈ image.received ∨ b ∈ image'.received}) :
    image.config = image'.config ∧ image.layers = image'.layers := by
  have hanswer : image.answer = image'.answer :=
    hhonest.answer.unique hsha (.inl (by simp [received])) (.inr (by simp [received])) hhonest'.answer
  have hchosen : image.chosen = image'.chosen := h.resolved.unique hserde (hanswer ▸ h'.resolved)
  have hbytes : image.manifestBytes = image'.manifestBytes := by
    cases hc : image.chosen with
    | none =>
      have hsource := h.resolved.source
      have hsource' := h'.resolved.source
      rw [hc] at hsource
      rw [← hchosen, hc] at hsource'
      rw [hsource.1, hsource'.1, hanswer]
    | some digest =>
      exact (hhonest.manifest digest hc).unique hsha (.inl (by simp [received]))
        (.inr (by simp [received])) (hhonest'.manifest digest (hchosen ▸ hc))
  have hmanifest : image.manifest = image'.manifest :=
    Except.ok.inj ((hbytes ▸ h.resolved.parsed).symm.trans h'.resolved.parsed)
  have hblob : image.configBlob = image'.configBlob :=
    h.configBlob.unique hsha (.inl (by simp [received])) (.inr (by simp [received]))
      (hmanifest ▸ h'.configBlob)
  refine ⟨Except.ok.inj ((hblob ▸ h.config).symm.trans h'.config), ?_⟩
  exact forall₂_unique hsha (fun b hb => .inl (by simp [received, hb]))
    (fun b hb => .inr (by simp [received, hb])) h.layers (hmanifest ▸ h'.layers)

def sampleDigest (bytes : Bytes) : Text := "sha256:".toList ++ hexLower bytes

/-- Texts of one byte: 1 and 2 are manifests, 3 is an index, 10 is a configuration. -/
def sampleTools : Tools where
  sha256 := id
  manifest
    | [1] => .ok ⟨⟨sampleDigest [10], 1⟩, [⟨sampleDigest [20], 1⟩]⟩
    | [2] => .ok ⟨⟨sampleDigest [10], 1⟩, [⟨sampleDigest [21], 1⟩]⟩
    | _ => .error "missing field"
  manifestIndex
    | [3] => .ok ⟨[⟨sampleDigest [1], some ⟨"amd64".toList, "linux".toList⟩⟩]⟩
    | _ => .error "missing field"
  config
    | [10] => .ok ⟨none, some ["sh"], none, none⟩
    | _ => .error "expected value"
  listsManifests bytes := bytes = [3]
  token _ := .ok "t".toList
  registryErrorDetail _ _ := "Not Found"

/-- The manifest under every name, and blobs under their digests; no token, no answer. -/
def sampleRegistry (token : Text) (manifests : List (Text × Bytes)) : Registry := fun _ request =>
  if "/token".toList <:+: request.url then .answer 200 none [] none
  else if request.token ≠ token then .answer 401 none [] none
  else
    match (manifests ++ [[10], [20], [21]].map fun b => (sampleDigest b, b)).find?
      fun p => p.1 <:+ request.url with
    | some p => .answer 200 none [p.2] none
    | none => .answer 404 none [] none

def sampleImage (reference : Text) (answer : Bytes) (chosen : Option Text) (manifestBytes layer : Bytes) :
    PulledImage :=
  ⟨⟨[], ["sh"], [], none⟩, [layer], reference, answer, chosen, manifestBytes,
    ⟨⟨sampleDigest [10], 1⟩, [⟨sampleDigest layer, 1⟩]⟩, [10]⟩

end Husker.Image
