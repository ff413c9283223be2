import Wacryptolib.Basic
import Wacryptolib.KeyStorage
import Wacryptolib.Escrow
import Wacryptolib.Provisioning
import Wacryptolib.Authorization
import Wacryptolib.FreeKeys
import Wacryptolib.Runs
import Wacryptolib.Conc.Provisioning
import Wacryptolib.Conc.FreeKeys
import Wacryptolib.Exceptions
import Wacryptolib.Lifecycle
import Wacryptolib.Failures
import Wacryptolib.Conc.Service
import Wacryptolib.Conc.Serial
import Wacryptolib.Conc.KeyReuse
