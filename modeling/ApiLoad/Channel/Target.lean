import ApiLoad.Foundation.KeyOrder
import ApiLoad.Foundation.OrderedMap

/-!
# Channel targets

The protocols, operations and route modes that a request can name, and the execution target that
a channel resolves to (`internal/protocol/protocol.go`, `internal/execution/contracts.go`,
`internal/channel/channel.go`). All three enumerations are strings in the source. Texts outside
an enumeration behave alike wherever they are read, so one constructor stands for them.
-/
namespace ApiLoad.Channel
open Std Foundation

inductive Protocol where
  | nativeServices | transparentHTTP | openAICompletions | openAIResponses | openAIImages
  | openAIEmbeddings | codexLive | rerank | decisions | anthropic | gemini | geminiEmbeddings
  | cohereEmbeddings | audioSpeech | mistral
  | unrecognized
deriving DecidableEq, Repr

def Protocol.text : Protocol → String
  | .nativeServices => "native-services"
  | .transparentHTTP => "transparent-http"
  | .openAICompletions => "openai-completions"
  | .openAIResponses => "openai-responses"
  | .openAIImages => "openai-images"
  | .openAIEmbeddings => "openai-embeddings"
  | .codexLive => "codex-live"
  | .rerank => "rerank"
  | .decisions => "decisions"
  | .anthropic => "anthropic"
  | .gemini => "gemini"
  | .geminiEmbeddings => "gemini-embeddings"
  | .cohereEmbeddings => "cohere-embeddings"
  | .audioSpeech => "audio-speech"
  | .mistral => "mistral"
  | .unrecognized => ""

def Protocol.valid (p : Protocol) : Bool := p ≠ .unrecognized

instance : Ord Protocol := ⟨compareOn Protocol.ctorIdx⟩
instance : TransOrd Protocol := inferInstanceAs (TransCmp (compareOn Protocol.ctorIdx))
instance : LawfulEqOrd Protocol :=
  KeyOrder.lawful_of_injective (Function.LeftInverse.injective Protocol.ofNat_ctorIdx)

/-- `unset` is the empty text, which `normalizeQuery` replaces by a default. -/
inductive Operation where
  | transparentRequest | resourceCreate | resourceRead | resourceDelete | resourceCancel
  | chatCompletion | responsesCreate | responsesRetrieve | responsesDelete | responsesCancel
  | responsesInputItems | responsesCompact | responsesInputTokens | countTokens
  | responsesPassthrough | webSearch | imagesGenerate | imagesEdit | embeddingsCreate | liveCall
  | rerank | decisionsCreate | audioSpeech | mistralOCR | mistralFIM | mistralAudioTranscription
  | mistralAudioSpeech | mistralModeration | mistralChatModeration | mistralClassification
  | mistralVoices | mistralRealtimeTranscription | listModels | probe
  | unset | unrecognized
deriving DecidableEq, Repr

def Operation.text : Operation → String
  | .transparentRequest => "transparent_request"
  | .resourceCreate => "resource_create"
  | .resourceRead => "resource_read"
  | .resourceDelete => "resource_delete"
  | .resourceCancel => "resource_cancel"
  | .chatCompletion => "chat_completion"
  | .responsesCreate => "responses_create"
  | .responsesRetrieve => "responses_retrieve"
  | .responsesDelete => "responses_delete"
  | .responsesCancel => "responses_cancel"
  | .responsesInputItems => "responses_input_items"
  | .responsesCompact => "responses_compact"
  | .responsesInputTokens => "responses_input_tokens"
  | .countTokens => "count_tokens"
  | .responsesPassthrough => "responses_passthrough"
  | .webSearch => "web_search"
  | .imagesGenerate => "images_generate"
  | .imagesEdit => "images_edit"
  | .embeddingsCreate => "embeddings_create"
  | .liveCall => "live_call"
  | .rerank => "rerank"
  | .decisionsCreate => "decisions_create"
  | .audioSpeech => "audio_speech"
  | .mistralOCR => "mistral_ocr"
  | .mistralFIM => "mistral_fim"
  | .mistralAudioTranscription => "mistral_audio_transcription"
  | .mistralAudioSpeech => "mistral_audio_speech"
  | .mistralModeration => "mistral_moderation"
  | .mistralChatModeration => "mistral_chat_moderation"
  | .mistralClassification => "mistral_classification"
  | .mistralVoices => "mistral_voices"
  | .mistralRealtimeTranscription => "mistral_realtime_transcription"
  | .listModels => "list_models"
  | .probe => "probe"
  | .unset | .unrecognized => ""

def Operation.valid (o : Operation) : Bool := o ≠ .unset ∧ o ≠ .unrecognized

/-- The operations that consume the inference quota of a model. -/
def Operation.usesModelCooldown : Operation → Bool
  | .chatCompletion | .responsesCreate | .responsesCompact | .imagesGenerate | .imagesEdit
  | .embeddingsCreate | .rerank | .decisionsCreate | .audioSpeech | .mistralOCR | .mistralFIM
  | .mistralAudioTranscription | .mistralAudioSpeech | .mistralModeration
  | .mistralChatModeration | .mistralClassification | .mistralRealtimeTranscription => true
  | _ => false

instance : Ord Operation := ⟨compareOn Operation.ctorIdx⟩
instance : TransOrd Operation := inferInstanceAs (TransCmp (compareOn Operation.ctorIdx))
instance : LawfulEqOrd Operation :=
  KeyOrder.lawful_of_injective (Function.LeftInverse.injective Operation.ofNat_ctorIdx)

inductive RouteMode where
  | native | converted | unrecognized
deriving DecidableEq, Repr

def RouteMode.valid (mode : RouteMode) : Bool := mode = .native ∨ mode = .converted

instance : Ord RouteMode := ⟨compareOn RouteMode.ctorIdx⟩
instance : TransOrd RouteMode := inferInstanceAs (TransCmp (compareOn RouteMode.ctorIdx))
instance : LawfulEqOrd RouteMode :=
  KeyOrder.lawful_of_injective (Function.LeftInverse.injective RouteMode.ofNat_ctorIdx)

inductive RouteRequirement where
  | unset | any | native | unrecognized
deriving DecidableEq, Repr

def RouteRequirement.normalize : RouteRequirement → RouteRequirement
  | .unset => .any
  | requirement => requirement

def RouteRequirement.valid (requirement : RouteRequirement) : Bool :=
  requirement.normalize = .any ∨ requirement.normalize = .native

def RouteRequirement.allows (requirement : RouteRequirement) (mode : RouteMode) : Bool :=
  mode.valid && requirement.valid && (requirement.normalize = .any || mode = .native)

inductive ResponsesStorePreference where
  | none | preferStored | requireStored | unrecognized
deriving DecidableEq, Repr

def ResponsesStorePreference.valid (preference : ResponsesStorePreference) : Bool :=
  preference ≠ .unrecognized

inductive ResponsesStoreHandling where
  | none | upstreamManaged | stateless
deriving DecidableEq, Repr

structure WebsocketCapabilities where
  native : Bool := false
  continuation : Bool := false
  storedResponses : Bool := false
  prewarm : Bool := false
  multiplex : Bool := false
deriving DecidableEq, Repr

def WebsocketCapabilities.supports (c required : WebsocketCapabilities) : Bool :=
  c.native && (!required.continuation || c.continuation) &&
    (!required.storedResponses || c.storedResponses) &&
    (!required.prewarm || c.prewarm) && (!required.multiplex || c.multiplex)

/-- A channel ID; the compiler of the configuration treats one channel apart. -/
inductive ID where
  | codex
  | other (name : String)
deriving DecidableEq, Repr

def ID.text : ID → String
  | .codex => "codex"
  | .other name => name

/-- `ResolvedTarget`. A route resolver is code of the channel module and stays a function. -/
structure ResolvedTarget where
  channelID : ID
  targetConfig : String
  responsesWebsocket : WebsocketCapabilities
  modes : ExtTreeMap Protocol (ExtTreeMap Operation RouteMode)
  resolvers : Protocol → Operation → Option (String → RouteMode → RouteMode)
  responsesStoreHandlings : Protocol → Operation → ResponsesStoreHandling

namespace ResolvedTarget

def withTransparentHTTP (t : ResolvedTarget) : ResolvedTarget :=
  let route := ExtTreeMap.ofList [(Operation.transparentRequest, RouteMode.native)]
  { t with modes := t.modes.insert .transparentHTTP route }

def mode (t : ResolvedTarget) (clientProtocol : Protocol) (operation : Operation) :
    Option RouteMode :=
  t.modes[clientProtocol]?.bind fun byOperation => byOperation[operation]?

def responsesStoreHandling (t : ResolvedTarget) (clientProtocol : Protocol)
    (operation : Operation) : ResponsesStoreHandling :=
  t.responsesStoreHandlings clientProtocol operation

def modeForModel (t : ResolvedTarget) (clientProtocol : Protocol) (operation : Operation)
    (upstreamModel : String) : Option RouteMode :=
  (t.mode clientProtocol operation).bind fun mode =>
    match t.resolvers clientProtocol operation with
    | some resolver =>
      let resolved := resolver upstreamModel mode
      if resolved.valid then some resolved else none
    | none => some mode

/-- The declared operations of a protocol in a fixed order; the source sorts them by name. -/
def operations (t : ResolvedTarget) (clientProtocol : Protocol) : List Operation :=
  (t.modes[clientProtocol]?.getD ∅).keys

def supportsResponsesLifecycle (t : ResolvedTarget) : Bool :=
  [Operation.responsesRetrieve, .responsesDelete, .responsesCancel, .responsesInputItems].all
    fun operation => t.mode .openAIResponses operation = some .native

end ResolvedTarget

/-- What the compiler of the configuration reads of a channel's descriptor. -/
structure Descriptor where
  clientProtocols : List Protocol
  credentialFields : List String
  connectionType : String

/-- The directory of channels; its entries are code of the channel modules. -/
structure Registry where
  get : ID → Option Descriptor
  resolve : ID → String → Except String ResolvedTarget
  validateParams : ID → String → Except String String

end ApiLoad.Channel
