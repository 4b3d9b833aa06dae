import TonTrace.Address
import TonTrace.EventKind

/-! What can go wrong, and how it is told.

An error is a cause. Its kind and its wording are functions of the cause, and
the wording of each kind starts with the label of the kind.
-/

set_option autoImplicit false

namespace TonTrace

inductive ErrorKind where
  | rpc
  | decode
  | validation
  | timeout
  | notFound
  | other
  deriving DecidableEq

def ErrorKind.label : ErrorKind → String
  | .rpc => "Erro de RPC: "
  | .decode => "Erro de decodificação: "
  | .validation => "Erro de validação: "
  | .timeout => "Timeout: "
  | .notFound => "Não encontrado: "
  | .other => ""

inductive Error where
  /-- An error that the source of traces reports in its own words. -/
  | reported (kind : ErrorKind) (text : String)
  | badAddress (fault : AddressFault) (text : String)
  | badConfig
  /-- The payload does not have the fields of its operation. -/
  | badBody (operation : String)
  | noBody (transaction : Hash)
  | otherBody (expected found : String)
  | noSwapPayload
  | noInvoicePayload
  | tooDeep (limit : Nat)
  | badFees (transaction : Hash)
  | negativeValue (transaction : Hash)
  | volumeTooLarge (transaction : Hash)
  | noMessage (child : Hash)
  | externalMessage (child : Hash)
  | otherSender (child : Hash) (parent : Address)
  | otherEvent (expected found : EventKind)
  | noSaleData (sale : Address)
  | itemNotHandedOver (sale : Address)
  | unexpectedPayout (found : EventKind)
  | unexpectedSwapInput (found : EventKind)
  | timedOut (transaction : Hash) (limit : Nat)
  | unknownTrace (transaction : Hash)
  deriving DecidableEq

namespace Error

def kind : Error → ErrorKind
  | .reported kind _ => kind
  | .badAddress .. | .badConfig | .badBody _ | .noBody _ | .otherBody .. | .noSwapPayload
  | .noInvoicePayload => .decode
  | .tooDeep _ | .badFees _ | .negativeValue _ | .volumeTooLarge _ | .noMessage _
  | .externalMessage _ | .otherSender .. | .otherEvent .. | .noSaleData _ | .itemNotHandedOver _
  | .unexpectedPayout _ | .unexpectedSwapInput _ => .validation
  | .timedOut .. => .timeout
  | .unknownTrace _ => .notFound

def faultText : AddressFault → String
  | .noWorkchain => "Endereço sem workchain: "
  | .badWorkchain => "Workchain inválida: "
  | .badHash => "Endereço inválido: "
  | .badLength => "Endereço com tamanho inválido: "

def text : Error → String
  | .reported _ text => text
  | .badAddress fault text => faultText fault ++ text
  | .badConfig => "Configuração inválida"
  | .badBody operation => "Corpo " ++ operation ++ " inválido"
  | .noBody transaction => "Transação " ++ transaction.bareText ++ " sem corpo decodificado"
  | .otherBody expected found => "Esperado corpo " ++ expected ++ ", encontrado " ++ found
  | .noSwapPayload => "Swap STON.fi sem payload"
  | .noInvoicePayload => "Fatura sem payload"
  | .tooDeep limit => "Trace excede a profundidade máxima de " ++ Decimal.text limit
  | .badFees transaction => "Taxas inválidas na transação " ++ transaction.bareText
  | .negativeValue transaction => "Valor negativo na transação " ++ transaction.bareText
  | .volumeTooLarge transaction =>
    "Valores do trace excedem o limite na transação " ++ transaction.bareText
  | .noMessage child => "Transação filha " ++ child.bareText ++ " sem mensagem de entrada"
  | .externalMessage child =>
    "Transação filha " ++ child.bareText ++ " disparada por mensagem externa"
  | .otherSender child parent =>
    "Transação filha " ++ child.bareText ++ " não foi enviada por " ++ parent.text
  | .otherEvent expected found =>
    "Esperada bolha " ++ expected.name ++ ", encontrada " ++ found.name
  | .noSaleData sale => "Contrato de venda " ++ sale.text ++ " sem dados de venda"
  | .itemNotHandedOver sale => "Item não transferido pelo contrato de venda " ++ sale.text
  | .unexpectedPayout found => "Pagamento de swap inesperado: " ++ found.name
  | .unexpectedSwapInput found => "Entrada de swap inesperada: " ++ found.name
  | .timedOut transaction limit =>
    "Trace " ++ transaction.text ++ " não obtido em " ++ Decimal.text limit ++ " ms"
  | .unknownTrace transaction => "Trace " ++ transaction.text

def message (error : Error) : String := error.kind.label ++ error.text

end Error

end TonTrace
