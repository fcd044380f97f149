import ZingoIndexer.Framer.NymRequest
import ZingoIndexer.Wire.Response
import ZingoIndexer.Wire.DerivedResponse
